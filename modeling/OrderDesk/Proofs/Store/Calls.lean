import OrderDesk.Proofs.Order.Life

/-!
# The calls of a store

What each call of a store answers and leaves behind, by the order it names. From one state of the
store to a later one every order stays, and evolves.

## Main definitions

* `Store.Evolves`: every order is still there, in a later version

## Main results

* `Store.create_eq_some`: what a creation adds, under an id that was free
* `Store.update_eq_ok_iff`, `Store.update_of_ne`: when a write lands, and how it is refused
* `Store.evolves_of_create`, `Store.evolves_of_update`
-/

namespace OrderDesk

namespace Store

variable {s t : Store} {id : Uuid} {o cur created : Order} {expected : Status} {now : Instant}

theorem id_of_find? (h : s.find? id = some o) : o.id = id := by
  simpa using List.find?_some h

theorem id_revised_of_find? (h : s.find? id = some cur) (status : Status)
    (transaction : Option String) (method : Option Method) (now : Instant) :
    (revised cur status transaction method now).id = id := by
  simpa [revised] using List.find?_some h

theorem load_eq_ok_iff : s.load id = .ok o ↔ s.find? id = some o := by
  unfold load
  cases s.find? id with
  | none => simp
  | some o' => simp

theorem load_of_find? (h : s.find? id = some o) : s.load id = .ok o :=
  load_eq_ok_iff.mpr h

theorem load_of_find?_none (h : s.find? id = none) : s.load id = .error (.notFound id) := by
  simp [load, h]

/-- **A creation** adds the order under an id that was free, and nothing else. -/
theorem create_eq_some {draws : List Uuid} (h : s.create o draws = some (created, t)) :
    s.find? created.id = none ∧ created = { o with id := created.id } ∧
      ∀ other, t.find? other = if created.id = other then some created else s.find? other := by
  unfold create at h
  split at h
  · cases h
  · rename_i free hfree
    obtain ⟨rfl, rfl⟩ : { o with id := free } = created ∧ _ = t := by simpa using h
    have hunused : s.uses free = false := by simpa using List.find?_some hfree
    refine ⟨?_, rfl, fun other => find?_add s { o with id := free } hunused other⟩
    simpa [uses_eq_isSome] using hunused

/-- The order that is created is the last one. -/
theorem orders_of_create {draws : List Uuid} (h : s.create o draws = some (created, t)) :
    t.orders = s.orders ++ [created] := by
  unfold create at h
  split at h
  · cases h
  · obtain ⟨rfl, rfl⟩ : _ = created ∧ _ = t := by simpa using h
    rfl

/-- A creation takes the id that is given to the order. -/
theorem uses_of_create {draws : List Uuid} (h : s.create o draws = some (created, t)) (id : Uuid) :
    t.uses id = (decide (created.id = id) || s.uses id) := by
  obtain ⟨-, -, hfind⟩ := create_eq_some h
  rw [uses_eq_isSome, uses_eq_isSome, hfind]
  by_cases he : created.id = id <;> simp [he]

/-- **A write lands** exactly if the order is there in the expected status. -/
theorem update_eq_ok_iff :
    s.update o expected now = .ok t ↔
      ∃ cur, s.find? o.id = some cur ∧ cur.status = expected ∧
        t = s.revise o.id o.status o.transaction o.method now := by
  unfold update
  cases hfind : s.find? o.id with
  | none => simp
  | some cur =>
    by_cases he : cur.status = expected
    · simp [he, eq_comm]
    · simp [he]

theorem update_of_find? (h : s.find? o.id = some cur) (he : cur.status = expected) :
    s.update o expected now = .ok (s.revise o.id o.status o.transaction o.method now) :=
  update_eq_ok_iff.mpr ⟨cur, h, he, rfl⟩

/-- A write over another status than the expected one is refused with the status it met. -/
theorem update_of_ne (h : s.find? o.id = some cur) (he : cur.status ≠ expected) :
    s.update o expected now = .error (.conflict o.id expected cur.status) := by
  simp [update, h, he]

/-- What a write that landed leaves under each id. -/
theorem find?_of_update (h : s.update o expected now = .ok t) (other : Uuid) :
    t.find? other = (s.find? other).map fun cur =>
      if other = o.id then revised cur o.status o.transaction o.method now else cur := by
  obtain ⟨cur, -, -, rfl⟩ := update_eq_ok_iff.mp h
  exact find?_revise s o.id other o.status o.transaction o.method now

/-- A write takes no id. -/
theorem uses_of_update (h : s.update o expected now = .ok t) (id : Uuid) :
    t.uses id = s.uses id := by
  rw [uses_eq_isSome, uses_eq_isSome, find?_of_update h, Option.isSome_map]

/-- At most one order has an id. -/
theorem filter_id_eq (s : Store) (id : Uuid) :
    (s.orders.filter fun o => o.id = id) = (s.find? id).toList := by
  have key : ∀ os : List Order, (os.map (·.id)).Nodup →
      (os.filter fun o => o.id = id) = (os.find? fun o => o.id == id).toList := by
    intro os nodup
    induction os with
    | nil => rfl
    | cons o os ih =>
      obtain ⟨hnot, nodup⟩ := List.nodup_cons.mp nodup
      by_cases h : o.id = id
      · have hrest : (os.filter fun o => o.id = id) = [] := by
          refine List.filter_eq_nil_iff.mpr fun o' ho' => ?_
          rw [decide_eq_true_eq]
          exact fun h' => hnot (List.mem_map.mpr ⟨o', ho', h'.trans h.symm⟩)
        simp [h, hrest]
      · simpa [h] using ih nodup
  exact key s.orders s.nodup

/-- What is stored is found under its id. -/
theorem find?_of_mem (h : o ∈ s.orders) : s.find? o.id = some o := by
  have hmem : o ∈ s.orders.filter fun o' => o'.id = o.id := by simpa using h
  rw [filter_id_eq] at hmem
  simpa using hmem

/-! ## Evolution -/

/-- **Every order is still there**, in a later version. -/
def Evolves (s t : Store) : Prop :=
  ∀ id o, s.find? id = some o → ∃ o', t.find? id = some o' ∧ o.Evolves o'

theorem Evolves.refl (s : Store) : Evolves s s :=
  fun _ o h => ⟨o, h, .refl o⟩

theorem Evolves.trans {s t u : Store} (h : Evolves s t) (h' : Evolves t u) : Evolves s u := by
  intro id o ho
  obtain ⟨o₁, h₁, e₁⟩ := h id o ho
  obtain ⟨o₂, h₂, e₂⟩ := h' id o₁ h₁
  exact ⟨o₂, h₂, e₁.trans e₂⟩

theorem evolves_of_create {draws : List Uuid} (h : s.create o draws = some (created, t)) :
    Evolves s t := by
  obtain ⟨hnone, -, hfind⟩ := create_eq_some h
  intro id v hv
  refine ⟨v, ?_, .refl v⟩
  rw [hfind, if_neg]
  · exact hv
  · rintro rfl
    rw [hnone] at hv
    cases hv

/-- **A write made from a copy** lets the store evolve, if the copy is an earlier version of the
order and what is written could have followed it. -/
theorem evolves_of_update {v w : Order} (hcur : s.find? v.id = some cur) (hv : v.Evolves cur)
    (hw : v.Succeeds w) (h : s.update w v.status now = .ok t) : Evolves s t := by
  have hid : w.id = v.id := hw.identity.id
  obtain ⟨cur', hcur', hstatus, -⟩ := update_eq_ok_iff.mp h
  obtain rfl : cur = cur' := by
    rw [hid, hcur] at hcur'
    exact Option.some.inj hcur'
  intro id o ho
  rw [find?_of_update h, ho]
  refine ⟨_, rfl, ?_⟩
  split
  · rename_i heq
    rw [heq, hid, hcur] at ho
    obtain rfl := Option.some.inj ho
    exact (hv.succeeds_revised hstatus hw now).evolves
  · exact .refl o

end Store

end OrderDesk
