import OrderDesk.Order.Basic
import OrderDesk.Store.Error

/-!
# The store of orders

The orders of a process, in the order of their creation, each under an id of its own. A write
compares first: it lands only while the order is in the status that the writer expects.

## Main definitions

* `Store`, `Store.find?`
* `Store.create`, `Store.load`, `Store.update`: the calls of a repository

## Main results

* `Store.find?_revise`: what a write does to the order it names and to the others
* `Store.find?_add`: what a creation adds
-/

namespace OrderDesk

/-- **A store**: orders with different ids, oldest first. -/
structure Store where
  orders : List Order
  nodup : (orders.map (·.id)).Nodup

namespace Store

/-- The store without orders. -/
def empty : Store := ⟨[], List.nodup_nil⟩

instance : Inhabited Store := ⟨empty⟩

/-- The order with an id. -/
def find? (s : Store) (id : Uuid) : Option Order :=
  s.orders.find? fun o => o.id == id

/-- Whether an id is in use. -/
def uses (s : Store) (id : Uuid) : Bool :=
  s.orders.any fun o => o.id == id

/-- Whether there are no orders. -/
def isEmpty (s : Store) : Bool :=
  s.orders.isEmpty

theorem uses_eq_false_iff {s : Store} {id : Uuid} :
    s.uses id = false ↔ id ∉ s.orders.map (·.id) := by
  simp only [uses, List.any_eq_false, beq_iff_eq, List.mem_map, not_exists, not_and]

theorem uses_eq_isSome (s : Store) (id : Uuid) : s.uses id = (s.find? id).isSome := by
  rw [uses, find?, List.isSome_find?]

/-- The store with one more order, under an id that is not in use. -/
def add (s : Store) (order : Order) (h : s.uses order.id = false) : Store where
  orders := s.orders ++ [order]
  nodup := by
    have h := uses_eq_false_iff.1 h
    rw [List.map_append, List.nodup_append]
    refine ⟨s.nodup, by simp, ?_⟩
    intro a ha b hb
    have hb' : b = order.id := by simpa using hb
    rintro rfl
    exact h (hb' ▸ ha)

/-- **A creation.** The order keeps its id if that is free; otherwise ids are drawn until one is.
There is no outcome while every id drawn so far is in use. -/
def create (s : Store) (order : Order) (draws : List Uuid) : Option (Order × Store) :=
  match h : (order.id :: draws).find? fun id => !s.uses id with
  | none => none
  | some id =>
    let stored := { order with id }
    some (stored, s.add stored (by simpa using List.find?_some h))

/-- **A look at an order.** -/
def load (s : Store) (id : Uuid) : Except StoreError Order :=
  match s.find? id with
  | some order => .ok order
  | none => .error (.notFound id)

/-- An order with another status and other payment details, as of `now`. -/
def revised (o : Order) (status : Status) (transaction : Option String) (method : Option Method)
    (now : Instant) : Order :=
  { o with status, transaction, method, updatedAt := now }

/-- The store in which the order with an id has another status and other payment details. -/
def revise (s : Store) (id : Uuid) (status : Status) (transaction : Option String)
    (method : Option Method) (now : Instant) : Store where
  orders := s.orders.map fun o =>
    if o.id = id then revised o status transaction method now else o
  nodup := by
    have : (s.orders.map fun o =>
        if o.id = id then revised o status transaction method now else o).map (·.id)
          = s.orders.map (·.id) := by
      rw [List.map_map]
      apply List.map_congr_left
      intro o _
      dsimp only [Function.comp]
      split <;> rfl
    rw [this]
    exact s.nodup

/-- **A write that compares first**: status and payment details of `order` replace the stored ones
only while the stored status is the expected one. -/
def update (s : Store) (order : Order) (expected : Status) (now : Instant) :
    Except StoreError Store :=
  match s.find? order.id with
  | none => .error (.notFound order.id)
  | some stored =>
    if stored.status = expected then
      .ok (s.revise order.id order.status order.transaction order.method now)
    else .error (.conflict order.id expected stored.status)

theorem find?_revise (s : Store) (id other : Uuid) (status : Status)
    (transaction : Option String) (method : Option Method) (now : Instant) :
    (s.revise id status transaction method now).find? other =
      (s.find? other).map fun o =>
        if other = id then revised o status transaction method now else o := by
  have key : ∀ os : List Order,
      (os.map fun o => if o.id = id then revised o status transaction method now else o).find?
          (fun o => o.id == other) =
        (os.find? fun o => o.id == other).map fun o =>
          if other = id then revised o status transaction method now else o := by
    intro os
    induction os with
    | nil => rfl
    | cons o os ih =>
      have same : (if o.id = id then revised o status transaction method now else o).id = o.id := by
        split <;> rfl
      rw [List.map_cons, List.find?_cons, List.find?_cons, same, ih]
      by_cases h : o.id = other
      · subst h
        simp only [beq_self_eq_true, Option.map_some]
      · simp only [beq_eq_false_iff_ne.2 h]
  exact key s.orders

theorem find?_add (s : Store) (order : Order) (h : s.uses order.id = false) (id : Uuid) :
    (s.add order h).find? id = if order.id = id then some order else s.find? id := by
  have none_of : order.id = id → s.orders.find? (fun o => o.id == id) = none := by
    rintro rfl
    have := uses_eq_isSome s order.id
    rw [h] at this
    simpa [find?] using this.symm
  simp only [add, find?, List.find?_append]
  by_cases e : order.id = id
  · simp [none_of e, e]
  · simp [e]

end Store

end OrderDesk
