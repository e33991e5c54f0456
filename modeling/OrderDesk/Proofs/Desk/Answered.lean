import OrderDesk.Proofs.Desk.Law
import OrderDesk.Proofs.Store.Calls

/-!
# What an exchange tells about the store

An answer of the store shows what is stored at that moment, and what is stored after it.

## Main definitions

* `Store.Answers`: an exchange with a store leads to another one

## Main results

* `Store.Answers.find?`, `Store.Answers.missing`: what a look at an order shows
* `Store.Answers.landed`, `Store.Answers.conflict`: what the answer to a write shows
* `Store.Answers.still`: nothing else changes the store
-/

namespace OrderDesk

open Desk

/-- **An exchange with a store**: it gives this answer, by some outcomes and at some time, and is
another store afterwards. -/
def Store.Answers (s : Store) (x : Exchange Call Call.Answer) (s' : Store) : Prop :=
  ∃ (outcomes : Outcomes) (now : Instant),
    outcomes.answer now x.question s = (some x.answer, s')

namespace Store.Answers

variable {s s' : Store} {id : Uuid} {o w cur : Order} {expected : Status} {e : StoreError}

/-- **A look at an order** shows what is stored. -/
theorem find? (h : s.Answers (loaded id o) s') : s.find? id = some o := by
  obtain ⟨outcomes, now, answered⟩ := h
  exact load_eq_ok_iff.mp (answered_inj answered).1

/-- An order is missed only if there is none. -/
theorem missing (h : s.Answers (missed id e) s') : s.find? id = none ∧ e = .notFound id := by
  obtain ⟨outcomes, now, answered⟩ := h
  have hload : s.load id = .error e := (answered_inj answered).1
  cases hfind : s.find? id with
  | none =>
    rw [load_of_find?_none hfind] at hload
    exact ⟨rfl, (Except.error.inj hload).symm⟩
  | some o =>
    rw [load_of_find? hfind] at hload
    cases hload

/-- A write that lands is an update of the store. -/
theorem landed (h : s.Answers (written w expected) s') :
    ∃ now, s.update w expected now = .ok s' := by
  obtain ⟨outcomes, now, answered⟩ := h
  refine ⟨now, ?_⟩
  cases hu : s.update w expected now with
  | ok t =>
    simp only [written, Outcomes.answer, hu] at answered
    exact congrArg Except.ok (answered_inj answered).2
  | error e =>
    simp only [written, Outcomes.answer, hu] at answered
    cases (answered_inj answered).1

/-- **What was written is stored**, with the status that was written. -/
theorem find?_of_written (h : s.Answers (written w expected) s') :
    ∃ o, s'.find? w.id = some o ∧ o.status = w.status := by
  obtain ⟨now, hupdate⟩ := h.landed
  obtain ⟨cur, hcur, -⟩ := update_eq_ok_iff.mp hupdate
  rw [find?_of_update hupdate, hcur]
  exact ⟨_, rfl, by simp [revised]⟩

/-- **A write is refused** only because of the status that it meets. -/
theorem conflict (h : s.Answers (refused w expected e) s') (current : s.find? w.id = some cur) :
    cur.status ≠ expected ∧ e = .conflict w.id expected cur.status := by
  obtain ⟨outcomes, now, answered⟩ := h
  by_cases hs : cur.status = expected
  · simp only [refused, Outcomes.answer, update_of_find? current hs] at answered
    cases (answered_inj answered).1
  · simp only [refused, Outcomes.answer, update_of_ne current hs] at answered
    exact ⟨hs, (Except.error.inj (answered_inj answered).1).symm⟩

/-- **Whatever is no creation and no write that lands** leaves the store as it is. -/
theorem still {x : Exchange Call Call.Answer} (h : s.Answers x s')
    (hcreate : ∀ order, x.question ≠ .create order)
    (hwrite : ∀ w expected, x ≠ written w expected) : s' = s := by
  obtain ⟨outcomes, now, answered⟩ := h
  obtain ⟨call, a⟩ := x
  cases call with
  | create order => exact absurd rfl (hcreate order)
  | update w expected =>
    cases a with
    | ok u => exact absurd rfl (hwrite w expected)
    | error e =>
      cases hu : s.update w expected now with
      | error e' =>
        simp only [Outcomes.answer, hu] at answered
        exact (answered_inj answered).2.symm
      | ok t =>
        simp only [Outcomes.answer, hu] at answered
        cases (answered_inj answered).1
  | listParts _ | charge _ _ _ | publish _ | load _ | count _ =>
    exact (answered_inj answered).2.symm

end Store.Answers

end OrderDesk
