import OrderDesk.Proofs.Traffic.Basic

/-!
# Laws of programs

A law says what a program may ask after the exchanges it had, and how it may end after them. That a
program keeps a law is a matter of the program alone, whatever it is answered; in traffic every
visit then keeps its own law, whatever the others do.

## Main definitions

* `Law`, `Program.Keeps`, `Traffic.Lawful`

## Main results

* `Traffic.lawful_run`: in any traffic of programs that keep their laws, each visit is within its
  law
* `Traffic.exchange_invariant`: what lawful exchanges preserve holds in every traffic
-/

namespace OrderDesk

/-- **A law**: what may be asked after some exchanges, and what results there may be after them. -/
structure Law (Q : Type) (A : Q → Type) (R : Type) where
  asks : List (Exchange Q A) → Q → Prop
  ends : List (Exchange Q A) → R → Prop

/-- **A program keeps a law** after the exchanges it had, whatever it is answered from now on. -/
def Program.Keeps {Q : Type} {A : Q → Type} {R : Type} (law : Law Q A R) :
    Program Q A R → List (Exchange Q A) → Prop
  | .done r, past => law.ends past r
  | .ask q next, past => law.asks past q ∧ ∀ a, (next a).Keeps law (past ++ [⟨q, a⟩])

/-- A program keeps a law that allows everything. -/
theorem Program.keeps_of_forall {Q : Type} {A : Q → Type} {R : Type} {law : Law Q A R}
    (asks : ∀ past q, law.asks past q) (ends : ∀ past r, law.ends past r) (p : Program Q A R)
    (past : List (Exchange Q A)) : p.Keeps law past := by
  induction p generalizing past with
  | done r => exact ends past r
  | ask q next ih => exact ⟨asks past q, fun a => ih a _⟩

/-- **A visit is within a law** after the exchanges it had: it keeps it from here on, or the law has
its result. -/
def Stage.Within {Q : Type} {A : Q → Type} {R : Type} (law : Law Q A R)
    (past : List (Exchange Q A)) : Stage Q A R → Prop
  | .underway p => p.Keeps law past
  | .returned r => law.ends past r
  | .abandoned => True

namespace Traffic

variable {V C Q : Type} {A : Q → Type} {R σ : Type} {rules : Rules V C Q A R σ}
  {law : V → Law Q A R}

/-- **Each visit is within its law.** -/
structure Lawful (law : V → Law Q A R) (t : Traffic V Q A R σ) : Prop where
  within : ∀ {who : Nat} {v : V} {stage : Stage Q A R}, t.visits[who]? = some (v, stage) →
    stage.Within (law v) (own who t.exchanges)

theorem Booked.own_eq_nil {t : Traffic V Q A R σ} (h : t.Booked) :
    own t.visits.length t.exchanges = [] := by
  rw [List.eq_nil_iff_forall_not_mem]
  intro x hx
  exact absurd (h.exchanged (mem_exchanges.mp (mem_own.mp hx))) (Nat.lt_irrefl _)

theorem Lawful.enter {t : Traffic V Q A R σ} (h : t.Lawful law) (booked : t.Booked) {v : V}
    (keeps : (rules.program v).Keeps (law v) []) : (t.enter rules v).Lawful law := by
  refine ⟨fun {who w stage} hs => ?_⟩
  rw [exchanges_enter]
  rcases getElem?_enter.mp hs with hs | ⟨rfl, rfl, rfl⟩
  · exact h.within hs
  · -- the new visit has no exchanges behind it
    rw [booked.own_eq_nil]
    exact keeps

/-- What is seen of one visit keeps the others within their laws. -/
theorem Lawful.note {t : Traffic V Q A R σ} (h : t.Lawful law) {who : Nat} {v : V}
    {p : Program Q A R} (standing : t.visits[who]? = some (v, .underway p)) {stage : Stage Q A R}
    {s : σ} {e : Event V Q A R}
    (others : ∀ other, other ≠ who →
      own other (t.note who v stage s e).exchanges = own other t.exchanges)
    (within : stage.Within (law v) (own who (t.note who v stage s e).exchanges)) :
    (t.note who v stage s e).Lawful law := by
  have hlt : who < t.visits.length := (List.getElem?_eq_some_iff.mp standing).1
  refine ⟨fun {other w stage'} hs => ?_⟩
  rcases (getElem?_note hlt).mp hs with ⟨rfl, rfl, rfl⟩ | ⟨ho, hs⟩
  · exact within
  · rw [others other ho]
    exact h.within hs

theorem Lawful.step (keeps : ∀ v, (rules.program v).Keeps (law v) []) {t t' : Traffic V Q A R σ}
    (booked : t.Booked) (h : t.Lawful law) (step : Step rules t t') : t'.Lawful law := by
  cases step with
  | still => exact h
  | arrive v => exact h.enter booked (keeps v)
  | abandon standing => exact h.note standing (by simp) trivial
  | @back who v r standing =>
    have hends : (Program.done r).Keeps (law v) (own who t.exchanges) := h.within standing
    refine h.note standing (by simp) ?_
    rw [exchanges_note_returned]
    exact hends
  | @ask who v c q next a s standing answered =>
    refine h.note standing (fun other ho => ?_) ?_
    · rw [exchanges_note_exchanged, own_append, own_other (Ne.symm ho), List.append_nil]
    · rw [exchanges_note_exchanged, own_append, own_self]
      have hkeeps : (Program.ask q next).Keeps (law v) (own who t.exchanges) :=
        h.within standing
      exact hkeeps.2 a

theorem lawful_opened (s : σ) : (opened s : Traffic V Q A R σ).Lawful law where
  within hs := by simp [opened] at hs

/-- **In any traffic each visit is within its law**, if its program keeps the law by itself. -/
theorem lawful_run (keeps : ∀ v, (rules.program v).Keeps (law v) []) (s : σ)
    (moves : List (Move V C)) : ((opened s).run rules moves).Lawful law := by
  refine (run_invariant (I := fun t => t.Booked ∧ t.Lawful law) ?_
    ⟨booked_opened s, lawful_opened s⟩ moves).2
  intro t t' h step
  exact ⟨h.1.step step, h.2.step keeps h.1 step⟩

/-- **What lawful exchanges preserve holds in every traffic.** Arrivals, returns and abandonments
change neither the state nor the exchanges. -/
theorem exchange_invariant (keeps : ∀ v, (rules.program v).Keeps (law v) [])
    {I : σ → List (Nat × Exchange Q A) → Prop}
    (exchange : ∀ {who v c q s a s' xs}, (law v).asks (own who xs) q →
      rules.answer v c q s = (some a, s') → I s xs → I s' (xs ++ [(who, ⟨q, a⟩)]))
    {s : σ} (start : I s []) (moves : List (Move V C)) :
    I ((opened s).run rules moves).state ((opened s).run rules moves).exchanges := by
  refine (run_invariant (I := fun t => (t.Booked ∧ t.Lawful law) ∧ I t.state t.exchanges) ?_
    ⟨⟨booked_opened s, lawful_opened s⟩, start⟩ moves).2
  rintro t t' ⟨⟨booked, lawful⟩, inv⟩ step
  refine ⟨⟨booked.step step, lawful.step keeps booked step⟩, ?_⟩
  cases step with
  | still => exact inv
  | arrive v => rwa [exchanges_enter]
  | abandon standing => rwa [exchanges_note_abandoned]
  | back standing => rwa [exchanges_note_returned]
  | ask standing answered =>
    rw [exchanges_note_exchanged]
    have hkeeps := lawful.within standing
    exact exchange hkeeps.1 answered inv

end Traffic

end OrderDesk
