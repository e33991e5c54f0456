import OrderDesk.Proofs.Store.Calls
import OrderDesk.Sql.Tables

/-!
# Orders as rows

A store of orders, written as two tables: one row an order and one row a part, numbered from zero.
What the statements ask of these tables can be told in terms of the store.

## Main definitions

* `Record.ofOrder`, `partRows`, `Tables.of`: the rows of orders
* `recalled`: the parts of an order as they are read back

## Main results

* `recalled_perm`, `recalled_eq`: all parts are read back; in their order, if the numbers suffice
* `Tables.ordersOf_of`, `Tables.partsOf_of`: the rows that are asked for
* `Tables.revise_of`: a write to the tables is the write to the store
-/

namespace OrderDesk

theorem Status.name_inj {s t : Status} : s.name = t.name ↔ s = t := by
  refine ⟨fun h => ?_, congrArg name⟩
  have hname := congrArg ofName? h
  rw [ofName?_name, ofName?_name] at hname
  exact Option.some.inj hname

namespace Sql

/-- **The row of an order.** -/
def Record.ofOrder (o : Order) : Record where
  id := o.id
  user := o.user
  total := o.total
  status := o.status.name
  transaction := o.transaction
  method := o.method.map Method.name
  createdAt := o.createdAt
  updatedAt := o.updatedAt

/-- **The rows of an order's parts**, from `position` on. -/
def partRows (order : Uuid) : Nat → List String → List PartRow
  | _, [] => []
  | position, part :: rest =>
    ⟨order, Int32.ofNat position, part⟩ :: partRows order (position + 1) rest

/-- **The tables of some orders.** -/
def Tables.of (orders : List Order) : Tables where
  orders := orders.map Record.ofOrder
  parts := orders.flatMap fun o => partRows o.id 0 o.parts

/-- **The rows that a creation adds**: that of the order, and those of its first parts. -/
def newRows (o : Order) (done : List String) : Tables := ⟨[Record.ofOrder o], partRows o.id 0 done⟩

/-- **The parts of an order as they are read back**, by their numbers. -/
def recalled (order : Uuid) (parts : List String) : List String :=
  ((partRows order 0 parts).mergeSort fun a b => decide (a.position ≤ b.position)).map (·.part)

/-- The most parts whose numbers do not wrap around. -/
def mostParts : Nat := 2147483648

/-! ## Parts -/

theorem order_of_mem_partRows {order : Uuid} {position : Nat} {parts : List String}
    {row : PartRow} (h : row ∈ partRows order position parts) : row.order = order := by
  induction parts generalizing position with
  | nil => cases h
  | cons part rest ih =>
    obtain rfl | h := List.mem_cons.mp h
    · rfl
    · exact ih h

@[simp] theorem map_part_partRows (order : Uuid) (position : Nat) (parts : List String) :
    (partRows order position parts).map (·.part) = parts := by
  induction parts generalizing position with
  | nil => rfl
  | cons part rest ih => rw [partRows, List.map_cons, ih]

theorem partRows_append (order : Uuid) (position : Nat) (xs ys : List String) :
    partRows order position (xs ++ ys) =
      partRows order position xs ++ partRows order (position + xs.length) ys := by
  induction xs generalizing position with
  | nil => rfl
  | cons x xs ih =>
    rw [List.cons_append, partRows, ih, partRows, List.cons_append, List.length_cons,
      Nat.add_right_comm, Nat.add_assoc]

theorem position_of_mem_partRows {order : Uuid} {position : Nat} {parts : List String}
    {row : PartRow} (h : row ∈ partRows order position parts) :
    ∃ i, position ≤ i ∧ i < position + parts.length ∧ row.position = Int32.ofNat i := by
  induction parts generalizing position with
  | nil => cases h
  | cons part rest ih =>
    obtain rfl | h := List.mem_cons.mp h
    · exact ⟨position, Nat.le_refl _, by simp, rfl⟩
    · obtain ⟨i, lower, upper, hi⟩ := ih h
      exact ⟨i, by omega, by simp only [List.length_cons]; omega, hi⟩

theorem toInt_ofNat {i : Nat} (h : i < mostParts) : (Int32.ofNat i).toInt = i :=
  Int32.toInt_ofNat_of_lt h

/-- Numbers that do not wrap around are in order. -/
theorem ofNat_le_ofNat {i j : Nat} (h : i ≤ j) (hj : j < mostParts) :
    Int32.ofNat i ≤ Int32.ofNat j := by
  rw [Int32.le_iff_toInt_le, toInt_ofNat (Nat.lt_of_le_of_lt h hj), toInt_ofNat hj]
  exact Int.ofNat_le.mpr h

/-- Numbers that do not wrap around are different. -/
theorem ofNat_ne_ofNat {i j : Nat} (h : i < j) (hj : j < mostParts) :
    Int32.ofNat i ≠ Int32.ofNat j := by
  intro he
  have hint := congrArg Int32.toInt he
  rw [toInt_ofNat (Nat.lt_trans h hj), toInt_ofNat hj] at hint
  omega

theorem pairwise_partRows (order : Uuid) {position : Nat} {parts : List String}
    (h : position + parts.length ≤ mostParts) :
    (partRows order position parts).Pairwise fun a b => a.position ≤ b.position := by
  induction parts generalizing position with
  | nil => exact .nil
  | cons part rest ih =>
    rw [List.length_cons] at h
    refine .cons (fun row hrow => ?_) (ih (by omega))
    obtain ⟨i, lower, upper, hi⟩ := position_of_mem_partRows hrow
    rw [hi]
    exact ofNat_le_ofNat (by omega) (by omega)

/-- **All parts are read back.** -/
theorem recalled_perm (order : Uuid) (parts : List String) : (recalled order parts).Perm parts := by
  have h := (List.mergeSort_perm (partRows order 0 parts)
    fun a b => decide (a.position ≤ b.position)).map (·.part)
  rwa [map_part_partRows] at h

/-- **The parts are read back in their order**, if their numbers do not wrap around. -/
theorem recalled_eq (order : Uuid) {parts : List String} (h : parts.length ≤ mostParts) :
    recalled order parts = parts := by
  have hsorted : (partRows order 0 parts).Pairwise fun a b =>
      decide (a.position ≤ b.position) = true := by
    simpa using @pairwise_partRows order 0 parts (by omega)
  rw [recalled, List.mergeSort_of_pairwise hsorted, map_part_partRows]

/-! ## Reading back -/

@[simp] theorem read_toRow (r : Record) : r.toRow.read = .ok r := rfl

/-- **The order of its row** is the order, with the parts that were read. -/
@[simp] theorem toOrder_ofOrder (o : Order) (parts : List String) :
    (Record.ofOrder o).toOrder parts = .ok { o with parts } := by
  have hmethod : readMethod (o.method.map Method.name) = .ok o.method := by
    cases o.method with
    | none => rfl
    | some method => simp [readMethod, Method.ofName?_name]
  simp [Record.toOrder, Record.ofOrder, hmethod, readStatus, Status.ofName?_name]

/-- The rows of an order tell all of it. -/
theorem newRows_inj {o o' : Order} (h : newRows o o.parts = newRows o' o'.parts) : o = o' := by
  obtain ⟨hrecord, hparts⟩ := Tables.mk.inj h
  have hread := congrArg (fun r => Record.toOrder r o.parts) (List.singleton_inj.mp hrecord)
  have hmap := congrArg (List.map PartRow.part) hparts
  rw [map_part_partRows, map_part_partRows] at hmap
  rw [toOrder_ofOrder, toOrder_ofOrder] at hread
  have ho : o = { o' with parts := o.parts } := Except.ok.inj hread
  exact ho.trans (by rw [hmap])

@[simp] theorem onlyColumns_map_some (cells : List String) :
    onlyColumns (cells.map some) = .ok cells := by
  induction cells with
  | nil => rfl
  | cons cell rest ih => simp [onlyColumns, required, ih]

/-! ## What is asked of the tables -/

namespace Tables

@[simp] theorem append_empty (t : Tables) : t.append .empty = t := by
  simp [append, empty]

@[simp] theorem of_nil : Tables.of [] = .empty := rfl

/-- An order more is its row more, and its parts. -/
theorem of_append (orders : List Order) (o : Order) :
    Tables.of (orders ++ [o]) = (Tables.of orders).append (newRows o o.parts) := by
  simp [Tables.of, append, newRows]

theorem hasOrder_of (s : Store) (id : Uuid) : (Tables.of s.orders).hasOrder id = s.uses id := by
  simp only [hasOrder, Tables.of, List.any_map, Store.uses]
  rfl

/-- **The rows of the orders with an id.** -/
theorem ordersOf_of (s : Store) (id : Uuid) :
    (Tables.of s.orders).ordersOf id = (s.find? id).toList.map Record.ofOrder := by
  rw [← Store.filter_id_eq, ordersOf, Tables.of, List.filter_map]
  rfl

/-- The rows of the parts of an order with an id. -/
theorem filter_parts_of (s : Store) (id : Uuid) :
    (Tables.of s.orders).parts.filter (fun r => r.order == id) =
      (s.find? id).toList.flatMap fun o => partRows o.id 0 o.parts := by
  have key : ∀ os : List Order,
      (os.flatMap fun o => partRows o.id 0 o.parts).filter (fun r => r.order == id) =
        (os.filter fun o => o.id = id).flatMap fun o => partRows o.id 0 o.parts := by
    intro os
    induction os with
    | nil => rfl
    | cons o os ih =>
      rw [List.flatMap_cons, List.filter_append, ih]
      by_cases h : o.id = id
      · have hall : (partRows o.id 0 o.parts).filter (fun r => r.order == id) =
            partRows o.id 0 o.parts :=
          List.filter_eq_self.mpr fun row hrow => by simp [order_of_mem_partRows hrow, h]
        rw [hall, List.filter_cons_of_pos (by simpa using h), List.flatMap_cons]
      · have hnone : (partRows o.id 0 o.parts).filter (fun r => r.order == id) = [] :=
          List.filter_eq_nil_iff.mpr fun row hrow => by simp [order_of_mem_partRows hrow, h]
        rw [hnone, List.filter_cons_of_neg (by simpa using h), List.nil_append]
  rw [← Store.filter_id_eq]
  exact key s.orders

/-- There are no parts of an order that is not stored. -/
theorem hasPart_of_unused {s : Store} {id : Uuid} (unused : s.uses id = false) (position : Int32) :
    (Tables.of s.orders).hasPart id position = false := by
  have hnone : s.find? id = none := by simpa [Store.uses_eq_isSome] using unused
  have hfilter := filter_parts_of s id
  rw [hnone, Option.toList_none, List.flatMap_nil, List.filter_eq_nil_iff] at hfilter
  refine List.any_eq_false.mpr fun row hrow => ?_
  simpa using fun horder => absurd (beq_iff_eq.mpr horder) (hfilter row hrow)

/-- **The parts of an order** are those that are read back. -/
theorem partsOf_of {s : Store} {o : Order} (h : s.find? o.id = some o) :
    ((Tables.of s.orders).partsOf o.id).map (·.part) = recalled o.id o.parts := by
  rw [partsOf, filter_parts_of, h]
  simp [recalled]

theorem isMeant_ofOrder {id : Uuid} {expected : Status} {o : Order} :
    isMeant id expected.name (Record.ofOrder o) = true ↔ o.id = id ∧ o.status = expected := by
  simp [isMeant, Record.ofOrder, Status.name_inj]

/-- **The number of rows that a write changes**, by what is stored under its id. -/
theorem length_filter_isMeant_of (s : Store) (id : Uuid) (expected : Status) :
    ((Tables.of s.orders).orders.filter (isMeant id expected.name)).length =
      ((s.find? id).toList.filter fun o => o.status = expected).length := by
  rw [← Store.filter_id_eq, List.filter_filter, Tables.of, List.filter_map, List.length_map]
  refine congrArg _ (List.filter_congr fun o _ => Bool.eq_iff_iff.mpr ?_)
  rw [Function.comp_apply, isMeant_ofOrder]
  simp [and_comm]

/-- A write changes every row that it is meant for. -/
theorem revise_of_orders (orders : List Order) (id : Uuid) (expected status : Status)
    (transaction : Option String) (method : Option Method) (now : Instant) :
    (Tables.of orders).revise id expected.name status.name transaction (method.map Method.name)
        now =
      Tables.of (orders.map fun o => if o.id = id ∧ o.status = expected then
        Store.revised o status transaction method now else o) := by
  unfold revise Tables.of
  congr 1
  · rw [List.map_map, List.map_map]
    refine List.map_congr_left fun o _ => ?_
    by_cases h : o.id = id ∧ o.status = expected
    · rw [Function.comp_apply, if_pos (isMeant_ofOrder.mpr h), Function.comp_apply, if_pos h]
      rfl
    · rw [Function.comp_apply, if_neg (mt isMeant_ofOrder.mp h), Function.comp_apply, if_neg h]
  · rw [List.flatMap_map]
    refine congrArg (fun f => orders.flatMap f) (funext fun o => ?_)
    split <;> rfl

/-- **The tables after a write that lands** are those of the store after it. -/
theorem revise_of {s : Store} {id : Uuid} {cur : Order} (h : s.find? id = some cur)
    (status : Status) (transaction : Option String) (method : Option Method) (now : Instant) :
    (Tables.of s.orders).revise id cur.status.name status.name transaction
        (method.map Method.name) now =
      Tables.of (s.revise id status transaction method now).orders := by
  rw [revise_of_orders]
  refine congrArg Tables.of (List.map_congr_left fun o ho => ?_)
  by_cases hid : o.id = id
  · -- ids are not shared, so this is the order that was found
    obtain rfl : o = cur := Option.some.inj ((Store.find?_of_mem ho).symm.trans (hid ▸ h))
    simp [hid]
  · simp [hid]

/-- **The tables after a write that does not land** are as before. -/
theorem revise_of_ne {s : Store} {id : Uuid} {expected : Status}
    (h : ∀ cur, s.find? id = some cur → cur.status ≠ expected) (status : Status)
    (transaction : Option String) (method : Option Method) (now : Instant) :
    (Tables.of s.orders).revise id expected.name status.name transaction (method.map Method.name)
        now = Tables.of s.orders := by
  rw [revise_of_orders]
  refine congrArg Tables.of ((List.map_congr_left fun o ho => if_neg ?_).trans (List.map_id _))
  rintro ⟨hid, hstatus⟩
  exact h o (hid ▸ Store.find?_of_mem ho) hstatus

end Tables

end Sql

end OrderDesk
