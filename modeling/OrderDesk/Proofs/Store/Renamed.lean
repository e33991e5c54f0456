import Mathlib.Logic.Equiv.Basic
import OrderDesk.Proofs.Store.Alike

/-!
# Up to the ids

A store of the same orders under other ids. No call of a store looks into an id, so calls about the
same orders are answered alike.

## Main definitions

* `Order.renamed`, `Store.renamed`, `StoreError.renamed`

## Main results

* `Store.find?_renamed`, `Store.load_renamed`, `Store.update_renamed`
* `exists_perm_map_eq`: between two lists of different ids there is a renaming
-/

namespace OrderDesk

/-- **Two lists of different things**, equally long, are the same up to a permutation, which leaves
alone what is in neither of them. -/
theorem exists_perm_map_eq {α : Type} [DecidableEq α] {xs ys : List α} (hx : xs.Nodup)
    (hy : ys.Nodup) (hlength : xs.length = ys.length) :
    ∃ e : Equiv.Perm α, xs.map e = ys ∧ ∀ a, a ∉ xs → a ∉ ys → e a = a := by
  induction xs generalizing ys with
  | nil =>
    obtain rfl : ys = [] := List.eq_nil_of_length_eq_zero hlength.symm
    exact ⟨Equiv.refl α, rfl, fun a _ _ => rfl⟩
  | cons x xs ih =>
    cases ys with
    | nil => cases hlength
    | cons y ys =>
      obtain ⟨hx', hx⟩ := List.nodup_cons.mp hx
      obtain ⟨hy', hy⟩ := List.nodup_cons.mp hy
      obtain ⟨e, he, hfix⟩ := ih hx hy (Nat.succ.inj hlength)
      refine ⟨e.trans (Equiv.swap (e x) y), ?_, fun a hax hay => ?_⟩
      · rw [List.map_cons, ← he]
        congr 1
        · simp
        · refine List.map_congr_left fun a ha => ?_
          have hax : e a ≠ e x := fun h => hx' (e.injective h ▸ ha)
          have hay : e a ≠ y := fun h => hy' (he ▸ h ▸ List.mem_map_of_mem ha)
          simp [Equiv.swap_apply_of_ne_of_ne hax hay]
      · rw [List.mem_cons, not_or] at hax hay
        have ha := hfix a hax.2 hay.2
        have hax' : a ≠ e x := fun h => hax.1 (e.injective (ha.trans h))
        simp [ha, Equiv.swap_apply_of_ne_of_ne hax' hay.1]

/-- The order under another id. -/
def Order.renamed (e : Equiv.Perm Uuid) (o : Order) : Order := { o with id := e o.id }

/-- A refusal that names another id. -/
def StoreError.renamed (e : Equiv.Perm Uuid) : StoreError → StoreError
  | notFound id => notFound (e id)
  | conflict id expected actual => conflict (e id) expected actual
  | storage reason => storage reason

namespace Store

variable (e : Equiv.Perm Uuid) (s : Store)

/-- **The store of the same orders under other ids.** -/
def renamed : Store where
  orders := s.orders.map (Order.renamed e)
  nodup := by
    have hids : (s.orders.map (Order.renamed e)).map (·.id) = (s.orders.map (·.id)).map e := by
      rw [List.map_map, List.map_map]
      rfl
    rw [hids]
    exact s.nodup.map e.injective

/-- **The same order is found** under its other id. -/
theorem find?_renamed (id : Uuid) :
    (s.renamed e).find? (e id) = (s.find? id).map (Order.renamed e) := by
  have hpred : (fun o : Order => o.id == e id) ∘ Order.renamed e = fun o => o.id == id := by
    funext o
    exact Bool.eq_iff_iff.mpr (by simp [Order.renamed])
  rw [find?, renamed, List.find?_map, hpred]
  rfl

theorem load_renamed (id : Uuid) :
    (s.renamed e).load (e id) =
      ((s.load id).map (Order.renamed e)).mapError (StoreError.renamed e) := by
  rw [load, load, find?_renamed]
  cases s.find? id <;> rfl

theorem orders_revise_renamed (id : Uuid) (status : Status) (transaction : Option String)
    (method : Option Method) (now : Instant) :
    ((s.renamed e).revise (e id) status transaction method now).orders =
      ((s.revise id status transaction method now).renamed e).orders := by
  simp only [revise, renamed, List.map_map]
  refine List.map_congr_left fun o _ => ?_
  by_cases h : o.id = id
  · simp [Order.renamed, revised, h]
  · simp [Order.renamed, h]

theorem eq_of_orders {s t : Store} (h : s.orders = t.orders) : s = t := by
  cases s
  cases t
  congr

/-- **The same write** to the same order. -/
theorem update_renamed (o : Order) (expected : Status) (now : Instant) :
    (s.renamed e).update (o.renamed e) expected now =
      ((s.update o expected now).map (renamed e)).mapError (StoreError.renamed e) := by
  rw [update, update, show (o.renamed e).id = e o.id from rfl, find?_renamed]
  cases s.find? o.id with
  | none => rfl
  | some cur =>
    rw [Option.map_some]
    by_cases h : cur.status = expected
    · have hrevise := eq_of_orders
        (orders_revise_renamed e s o.id o.status o.transaction o.method now)
      simp [Order.renamed, h, Except.map, Except.mapError, ← hrevise]
    · simp [Order.renamed, h, Except.map, Except.mapError, StoreError.renamed]

end Store

end OrderDesk
