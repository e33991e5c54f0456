import OrderDesk.Proofs.Desk.Request
import OrderDesk.Proofs.Sql.Rows
import OrderDesk.Proofs.Traffic.Reaches

/-!
# The calls of a store, alone with the tables

A call is answered by several statements. If nobody else sends any in between, it comes to what the
same call does to a store.

## Main definitions

* `idle`: a connection to the tables of a store, outside of any transaction
* `Connection.respond`: the answers of a connection, with what the database makes up

## Main results

* `answer_selectOrder`, `answer_selectParts`, `answer_selectStatus`, `answer_updateOrder`: what the
  statements of looks and writes return, and what they change
* `run_load`, `run_update`, `run_create`: each call alone, in terms of the store
-/

namespace OrderDesk.Sql

/-- **A connection to the tables of a store**, outside of any transaction. -/
def idle (s : Store) : Connection := ⟨Tables.of s.orders, .empty⟩

@[simp] theorem view_idle (s : Store) : (idle s).view = Tables.of s.orders :=
  Tables.append_empty _

variable (fresh : Uuid) (now : Instant) (s : Store)

/-! ## Statements -/

theorem answer_selectOrder (id : Uuid) :
    (idle s).answer fresh now (.selectOrder id) =
      (.ok ((s.find? id).toList.map fun v => (Record.ofOrder v).toRow), idle s) := by
  simp [Connection.answer, Tables.ordersOf_of, Function.comp_def]

theorem answer_selectParts {s : Store} {v : Order} (found : s.find? v.id = some v) :
    (idle s).answer fresh now (.selectParts v.id) =
      (.ok ((recalled v.id v.parts).map some), idle s) := by
  simp [Connection.answer, ← Tables.partsOf_of found, Function.comp_def]

theorem answer_selectStatus (id : Uuid) :
    (idle s).answer fresh now (.selectStatus id) =
      (.ok ((s.find? id).toList.map fun v => some v.status.name), idle s) := by
  simp [Connection.answer, Tables.ordersOf_of, Record.ofOrder, Function.comp_def]

/-- **A write changes one row**, if it lands on the store, and else none. -/
theorem answer_updateOrder (o : Order) (expected : Status) (added : Tables) :
    (⟨Tables.of s.orders, added⟩ : Connection).answer fresh now (updateOrder o expected) =
      match s.update o expected now with
      | .ok t => (.ok (1 : Nat), ⟨Tables.of t.orders, added⟩)
      | .error _ => (.ok (0 : Nat), ⟨Tables.of s.orders, added⟩) := by
  simp only [Connection.answer, updateOrder, Tables.length_filter_isMeant_of]
  cases h : s.find? o.id with
  | none =>
    rw [Tables.revise_of_ne (by simp [h])]
    simp [Store.update, h]
  | some cur =>
    by_cases hs : cur.status = expected
    · subst hs
      rw [Store.update_of_find? h rfl, Tables.revise_of h]
      simp
    · rw [Store.update_of_ne h hs, Tables.revise_of_ne (by simp [h, hs])]
      simp [hs]

/-! ## Calls -/

/-- **The answers of a connection**, with the id and the instant that the database makes up. -/
def Connection.respond (fresh : Uuid) (now : Instant) (q : Statement) (c : Connection) :
    Option q.Answer × Connection :=
  (some (c.answer fresh now q).1, (c.answer fresh now q).2)

/-- **A look at an order**, alone. -/
theorem run_load (id : Uuid) :
    (Sql.load id).run (Connection.respond fresh now) (idle s) =
      (some (match s.find? id with
        | some v => .ok { v with parts := recalled v.id v.parts }
        | none => .error (.notFound id)), idle s) := by
  cases h : s.find? id with
  | none => simp [load, send, Program.run, Connection.respond, answer_selectOrder, h]
  | some v =>
    obtain rfl := Store.id_of_find? h
    simp [load, send, proceed, Program.run, Connection.respond, answer_selectOrder, h,
      answer_selectParts]

/-- **A write that compares first**, alone. -/
theorem run_update (o : Order) (expected : Status) :
    (Sql.update o expected).run (Connection.respond fresh now) (idle s) =
      match s.update o expected now with
      | .ok t => (some (.ok ()), idle t)
      | .error e => (some (.error e), idle s) := by
  have hwrite : (idle s).answer fresh now (updateOrder o expected) = _ :=
    answer_updateOrder fresh now s o expected .empty
  simp only [update, send, Program.run, Connection.respond, hwrite]
  cases h : s.find? o.id with
  | none =>
    have hu : s.update o expected now = .error (.notFound o.id) := by simp [Store.update, h]
    simp [hu, explain, send, Program.run, Connection.respond, ← idle.eq_1, answer_selectStatus, h]
  | some cur =>
    by_cases hs : cur.status = expected
    · simp [Store.update_of_find? h hs, idle]
    · simp [Store.update_of_ne h hs, explain, send, proceed, required, readStatus,
        Status.ofName?_name, Program.run, Connection.respond, ← idle.eq_1, answer_selectStatus, h]

/-- **A connection in the middle of a creation**: the row of the order is added, and its first
parts. -/
def placing (s : Store) (o : Order) (done : List String) : Connection :=
  ⟨Tables.of s.orders, newRows o done⟩

variable {s}

/-- **A part more** is added, while the numbers suffice. -/
theorem answer_insertPart {o : Order} {done : List String} (unused : s.uses o.id = false)
    (few : done.length < mostParts) (part : String) :
    (placing s o done).answer fresh now (.insertPart o.id (Int32.ofNat done.length) part) =
      (.ok (1 : Nat), placing s o (done ++ [part])) := by
  have hparts : (placing s o done).view.hasPart o.id (Int32.ofNat done.length) = false := by
    have hnew : (partRows o.id 0 done).any (fun r =>
        r.order == o.id && r.position == Int32.ofNat done.length) = false := by
      refine List.any_eq_false.mpr fun row hrow => ?_
      obtain ⟨i, -, lower, hi⟩ := position_of_mem_partRows hrow
      have hne : row.position ≠ Int32.ofNat done.length :=
        hi ▸ ofNat_ne_ofNat (by omega) few
      simp [hne]
    have hold := Tables.hasPart_of_unused unused (Int32.ofNat done.length)
    rw [Tables.hasPart] at hold ⊢
    rw [placing, newRows, Connection.view, Tables.append, List.any_append, hold, hnew]
    rfl
  have horder : (placing s o done).view.hasOrder o.id = true := by
    simp [placing, newRows, Connection.view, Tables.append, Tables.hasOrder, Record.ofOrder]
  simp only [Connection.answer, hparts, horder]
  simp [placing, newRows, partRows_append, partRows]

/-- **The remaining parts** are added, one after the other. -/
theorem run_insertParts {α : Type} {o : Order} (unused : s.uses o.id = false)
    (done rest : List String) (few : done.length + rest.length ≤ mostParts) (next : StoreCall α) :
    (insertParts o.id next done.length rest).run (Connection.respond fresh now)
        (placing s o done) =
      next.run (Connection.respond fresh now) (placing s o (done ++ rest)) := by
  induction rest generalizing done with
  | nil => rw [insertParts, List.append_nil]
  | cons part rest ih =>
    rw [List.length_cons] at few
    have hpart := answer_insertPart fresh now unused (show done.length < mostParts by omega) part
    have hrest := ih (done ++ [part]) (by simp; omega)
    rw [List.length_append, List.length_singleton] at hrest
    simpa [insertParts, send, Program.run, Connection.respond, hpart] using hrest

/-- What a creation leaves in the store: the order, with what the database made up. -/
def numbered (o : Order) (fresh : Uuid) (now : Instant) : Order :=
  { o with id := fresh, createdAt := now, updatedAt := now }

/-- The row of the order is added under the id that the database made up. -/
theorem answer_insertOrder {o : Order} (unused : s.uses fresh = false) (priced : ¬ o.total < 0) :
    (idle s).answer fresh now (insertOrder o) =
      (.ok [⟨some fresh, some now, some now⟩], placing s (numbered o fresh now) []) := by
  have hfree : (Tables.of s.orders).hasOrder fresh = false := by rw [Tables.hasOrder_of, unused]
  simp [Connection.answer, insertOrder, priced, Status.ofName?_name, hfree]
  rfl

/-- What was added is there for everybody once it is committed. -/
theorem answer_commit {o : Order} (unused : s.uses o.id = false) :
    (placing s o o.parts).answer fresh now .commit = (.ok (), idle (s.add o unused)) := by
  have hview : (placing s o o.parts).view = Tables.of (s.add o unused).orders :=
    (Tables.of_append s.orders o).symm
  simp only [Connection.answer, hview, idle]

/-- What is done within a transaction and does not fail is not taken back. -/
theorem run_orRollback {α : Type} {call : StoreCall α} {c c' : Connection} {a : α}
    (h : call.run (Connection.respond fresh now) c = (some (.ok a), c')) :
    (orRollback call).run (Connection.respond fresh now) c = (some (.ok a), c') := by
  rw [orRollback, Program.run_bind, h]
  rfl

/-- **A creation**, alone: the order is added under the id that the database made up. -/
theorem run_create {o : Order} (unused : s.uses fresh = false) (priced : ¬ o.total < 0)
    (few : o.parts.length ≤ mostParts) :
    (Sql.create o).run (Connection.respond fresh now) (idle s) =
      (some (.ok (numbered o fresh now)), idle (s.add (numbered o fresh now) unused)) := by
  have hbegin : (idle s).answer fresh now .beginTransaction = (.ok (), idle s) := rfl
  have hinsert := answer_insertOrder fresh now unused priced
  have hparts := fun next : StoreCall Order => run_insertParts fresh now
    (o := numbered o fresh now) unused [] o.parts (by simpa using few) next
  have hcommit : (placing s (numbered o fresh now) o.parts).answer fresh now .commit =
      (.ok (), idle (s.add (numbered o fresh now) unused)) := answer_commit fresh now unused
  rw [create, send]
  refine run_orRollback fresh now ?_
  simp only [send, Program.run, Connection.respond, hbegin, hinsert, firstCreated, CreatedRow.read,
    required, proceed]
  refine (hparts _).trans ?_
  simp only [List.nil_append, Program.run, Connection.respond, hcommit]
  rfl

end OrderDesk.Sql
