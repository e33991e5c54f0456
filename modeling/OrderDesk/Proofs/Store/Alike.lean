import Mathlib.Data.List.Nodup
import OrderDesk.Proofs.Store.Calls

/-!
# Up to the time

Orders and stores that differ only in the times they carry. No call of a store looks at a time, so
alike stores answer alike and stay alike.

## Main definitions

* `Order.untimed`, `Order.Alike`, `Store.Alike`

## Main results

* `Store.Alike.find?_eq_some`, `Store.Alike.create_eq_some`, `Store.Alike.revise`
* `Store.alike_revise_self`: writing an order over itself changes nothing but the time
-/

namespace OrderDesk

/-- An order without its times. -/
def Order.untimed (o : Order) : Order := { o with createdAt := .epoch, updatedAt := .epoch }

/-- **Orders that differ only in their times.** -/
def Order.Alike (a b : Order) : Prop := a.untimed = b.untimed

namespace Order

variable {a b : Order}

theorem Alike.symm (h : a.Alike b) : b.Alike a := Eq.symm h

theorem Alike.untimed_eq (h : a.Alike b) : a.untimed = b.untimed := h

theorem Alike.id_eq (h : a.Alike b) : a.id = b.id := by
  simpa only [untimed] using congrArg Order.id h.untimed_eq

theorem Alike.status_eq (h : a.Alike b) : a.status = b.status := by
  simpa only [untimed] using congrArg Order.status h.untimed_eq

theorem Alike.transaction_eq (h : a.Alike b) : a.transaction = b.transaction := by
  simpa only [untimed] using congrArg Order.transaction h.untimed_eq

theorem Alike.method_eq (h : a.Alike b) : a.method = b.method := by
  simpa only [untimed] using congrArg Order.method h.untimed_eq

/-- Orders that differ only in their times have the same payment. -/
theorem SamePayment.of_alike {v : Order} (h : SamePayment v a) (hab : a.Alike b) :
    SamePayment v b :=
  ⟨hab.transaction_eq.symm.trans h.transaction, hab.method_eq.symm.trans h.method⟩

theorem Alike.with_id (h : a.Alike b) (id : Uuid) :
    Alike { a with id := id } { b with id := id } := by
  simpa only [Alike, untimed] using congrArg (fun o : Order => { o with id := id }) h.untimed_eq

theorem alike_placed (id : Uuid) (now now' : Instant) (user : String) (parts : List String)
    (total : Float) : (placed id now user parts total).Alike (placed id now' user parts total) :=
  rfl

end Order

namespace Store

/-- **Stores that differ only in the times of their orders.** -/
def Alike (s t : Store) : Prop := s.orders.map Order.untimed = t.orders.map Order.untimed

variable {s t : Store}

theorem Alike.refl (s : Store) : s.Alike s := rfl

theorem Alike.trans {u : Store} (h : s.Alike t) (h' : t.Alike u) : s.Alike u := Eq.trans h h'

theorem map_untimed_find? (s : Store) (id : Uuid) :
    (s.find? id).map Order.untimed = (s.orders.map Order.untimed).find? fun o => o.id == id := by
  rw [List.find?_map]
  rfl

theorem Alike.map_find? (h : s.Alike t) (id : Uuid) :
    (s.find? id).map Order.untimed = (t.find? id).map Order.untimed := by
  rw [map_untimed_find?, map_untimed_find?, h]

/-- Alike stores hold alike orders under the same ids. -/
theorem Alike.find?_eq_some (h : s.Alike t) {id : Uuid} {o : Order} (ho : s.find? id = some o) :
    ∃ o', t.find? id = some o' ∧ o.Alike o' := by
  have hmap := h.map_find? id
  rw [ho] at hmap
  obtain ⟨o', ho', he⟩ := Option.map_eq_some_iff.mp hmap.symm
  exact ⟨o', ho', he.symm⟩

theorem Alike.find?_eq_none (h : s.Alike t) {id : Uuid} (hn : s.find? id = none) :
    t.find? id = none := by
  have hmap := h.map_find? id
  rw [hn] at hmap
  exact Option.map_eq_none_iff.mp hmap.symm

theorem Alike.uses_eq (h : s.Alike t) : s.uses = t.uses := by
  funext id
  rw [uses_eq_isSome, uses_eq_isSome, ← Option.isSome_map (f := Order.untimed), h.map_find?,
    Option.isSome_map]

theorem create_of_free {o : Order} {draws : List Uuid} {free : Uuid}
    (h : ((o.id :: draws).find? fun id => !s.uses id) = some free) :
    ∃ unused,
      s.create o draws = some ({ o with id := free }, s.add { o with id := free } unused) := by
  unfold create
  split
  · rename_i hn
    rw [h] at hn
    cases hn
  · rename_i id hid
    obtain rfl : free = id := Option.some.inj (h.symm.trans hid)
    exact ⟨by simpa using List.find?_some h, rfl⟩

/-- The id that a creation takes is the first free one. -/
theorem free_of_create {o created : Order} {draws : List Uuid}
    (h : s.create o draws = some (created, t)) :
    ((o.id :: draws).find? fun id => !s.uses id) = some created.id := by
  unfold create at h
  split at h
  · cases h
  · rename_i free hfree
    obtain ⟨rfl, -⟩ : _ = created ∧ _ = t := by simpa using h
    exact hfree

theorem Alike.add (h : s.Alike t) {a b : Order} (hab : a.Alike b) (ha : s.uses a.id = false)
    (hb : t.uses b.id = false) : (s.add a ha).Alike (t.add b hb) := by
  change (s.orders ++ [a]).map Order.untimed = (t.orders ++ [b]).map Order.untimed
  rw [List.map_append, List.map_append, h]
  exact congrArg (fun o => t.orders.map Order.untimed ++ [o]) hab

/-- **Alike stores create alike**: the same id is drawn. -/
theorem Alike.create_eq_some (h : s.Alike t) {a b created : Order} {draws : List Uuid} {s' : Store}
    (hab : a.Alike b) (hs : s.create a draws = some (created, s')) :
    ∃ created' t', t.create b draws = some (created', t') ∧ created.Alike created' ∧
      s'.Alike t' := by
  cases hfree : (a.id :: draws).find? fun id => !s.uses id with
  | none =>
    unfold create at hs
    split at hs
    · cases hs
    · rename_i hid
      rw [hfree] at hid
      cases hid
  | some free =>
    obtain ⟨unused, hc⟩ := create_of_free hfree
    obtain ⟨rfl, rfl⟩ : { a with id := free } = created ∧ _ = s' := by simpa [hc] using hs
    rw [hab.id_eq, h.uses_eq] at hfree
    obtain ⟨unused', hc'⟩ := create_of_free hfree
    exact ⟨_, _, hc', hab.with_id free, h.add (hab.with_id free) unused unused'⟩

/-- The same write keeps alike stores alike, whenever it is made. -/
theorem Alike.revise (h : s.Alike t) (id : Uuid) (status : Status) (transaction : Option String)
    (method : Option Method) (now now' : Instant) :
    (s.revise id status transaction method now).Alike
      (t.revise id status transaction method now') := by
  have key : ∀ (os : List Order) (now : Instant),
      (os.map fun o => if o.id = id then revised o status transaction method now else o).map
          Order.untimed =
        (os.map Order.untimed).map fun o =>
          if o.id = id then revised o status transaction method .epoch else o := by
    intro os now
    rw [List.map_map, List.map_map]
    apply List.map_congr_left
    intro o _
    by_cases ho : o.id = id
    · simp [ho, Order.untimed, revised]
    · simp [ho, Order.untimed]
  change (s.orders.map _).map Order.untimed = (t.orders.map _).map Order.untimed
  rw [key, key, h]

/-- **Alike stores show alike orders.** -/
theorem Alike.map_load (h : s.Alike t) (id : Uuid) :
    (s.load id).map Order.untimed = (t.load id).map Order.untimed := by
  cases hs : s.find? id with
  | none => rw [load_of_find?_none hs, load_of_find?_none (h.find?_eq_none hs)]
  | some o =>
    obtain ⟨o', ho', halike⟩ := h.find?_eq_some hs
    rw [load_of_find? hs, load_of_find? ho']
    exact congrArg Except.ok halike

/-- **Alike stores take the same writes**, and refuse the others for the same reason. -/
theorem Alike.update (h : s.Alike t) (o : Order) (expected : Status) (now now' : Instant) :
    (∃ s' t', s.update o expected now = .ok s' ∧ t.update o expected now' = .ok t' ∧ s'.Alike t') ∨
      ∃ e, s.update o expected now = .error e ∧ t.update o expected now' = .error e := by
  cases hs : s.find? o.id with
  | none =>
    exact .inr ⟨.notFound o.id, by simp [Store.update, hs],
      by simp [Store.update, h.find?_eq_none hs]⟩
  | some cur =>
    obtain ⟨cur', hcur', halike⟩ := h.find?_eq_some hs
    by_cases he : cur.status = expected
    · exact .inl ⟨_, _, update_of_find? hs he, update_of_find? hcur' (halike.status_eq ▸ he),
        h.revise _ _ _ _ _ _⟩
    · refine .inr ⟨_, update_of_ne hs he, ?_⟩
      rw [halike.status_eq] at he ⊢
      exact update_of_ne hcur' he

/-- Writing an order over itself changes nothing but the time. -/
theorem alike_revise_self {id : Uuid} {o : Order} (h : s.find? id = some o) (now : Instant) :
    s.Alike (s.revise id o.status o.transaction o.method now) := by
  change s.orders.map Order.untimed = (s.orders.map _).map Order.untimed
  rw [List.map_map]
  apply List.map_congr_left
  intro o' ho'
  by_cases hid : o'.id = id
  · -- ids are not shared, so this is the order that was found
    obtain rfl : o' = o := List.inj_on_of_nodup_map s.nodup ho' (List.mem_of_find?_eq_some h)
      (hid.trans (id_of_find? h).symm)
    simp [hid, Order.untimed, revised]
  · simp [hid]

end Store

end OrderDesk
