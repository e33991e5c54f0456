import OrderDesk.Proofs.Sql.Rows
import OrderDesk.Proofs.Traffic.Noted

/-!
# What a server says, and what can be read of it

A server may say anything to a statement that is an answer to it. A row is read only if it has a
value in each column that must have one, and an order is made of it only if its names are known. So
what was read tells what the row was, column by column.

## Main definitions

* `Spoken`, `said`: exchanges with a server

## Main results

* `Status.ofName?_eq_some_iff`, `Method.ofName?_eq_some_iff`: a known name is the name of what it
  stands for
* `firstCreated_eq_ok_iff`: the row of a new order that can be read
* `read_eq_ok_iff`, `toOrder_eq_ok_iff`: the row that can be read, and the record of which an order
  is made
* `onlyColumns_eq_ok_iff`: the cells that are texts
-/

namespace OrderDesk

/-- What is found by its name has that name. -/
theorem eq_name_of_lookup {α : Type} {named : α → String} {all : List α} {name : String} {a : α}
    (h : (all.map fun a => (named a, a)).lookup name = some a) : name = named a := by
  obtain ⟨before, after, hall, -⟩ := List.lookup_eq_some_iff.mp h
  have hmem : (name, a) ∈ all.map fun a => (named a, a) := by
    rw [hall]
    exact List.mem_append_right _ List.mem_cons_self
  obtain ⟨a', -, hpair⟩ := List.mem_map.mp hmem
  obtain ⟨rfl, rfl⟩ := Prod.mk.inj hpair
  rfl

theorem Status.ofName?_eq_some_iff {name : String} {s : Status} :
    ofName? name = some s ↔ name = s.name := by
  constructor
  · exact eq_name_of_lookup
  · rintro rfl
    exact ofName?_name s

theorem Method.ofName?_eq_some_iff {name : String} {m : Method} :
    ofName? name = some m ↔ name = m.name := by
  constructor
  · exact eq_name_of_lookup
  · rintro rfl
    exact ofName?_name m

namespace Sql

/-! ## Exchanges with a server -/

/-- An exchange with the server. -/
abbrev Spoken := Exchange Statement Statement.Answer

/-- A statement was answered. -/
abbrev said (q : Statement) (a : q.Answer) : Spoken := ⟨q, a⟩

/-- The same exchanges had the same answers. -/
theorem answers_inj {q q' : Statement} {a b : q.Answer} {a' b' : q'.Answer}
    (h : [said q a, said q' a'] = [said q b, said q' b']) : a = b ∧ a' = b' := by
  cases h
  exact ⟨rfl, rfl⟩

/-! ## Columns -/

@[simp] theorem required_eq_ok_iff {α : Type} {column : Column} {value : Option α} {a : α} :
    required column value = .ok a ↔ value = some a := by
  cases value <;> simp [required]

theorem onlyColumns_eq_ok_iff {cells : List (Option String)} {texts : List String} :
    onlyColumns cells = .ok texts ↔ cells = texts.map some := by
  constructor
  · intro h
    induction cells generalizing texts with
    | nil =>
      obtain rfl := Except.ok.inj h
      rfl
    | cons cell cells ih =>
      rw [onlyColumns] at h
      split at h
      · cases h
      · rename_i text hcell
        split at h
        · cases h
        · rename_i more hmore
          obtain rfl := Except.ok.inj h
          rw [required_eq_ok_iff.mp hcell, ih hmore, List.map_cons]
  · rintro rfl
    exact onlyColumns_map_some texts

/-! ## The row of a new order -/

/-- **The row of a new order can be read** if there is one, with a value in each column. -/
theorem firstCreated_eq_ok_iff {rows : List CreatedRow} {made : Created} :
    firstCreated rows = .ok made ↔
      ∃ more, rows = ⟨some made.id, some made.createdAt, some made.updatedAt⟩ :: more := by
  constructor
  · intro h
    rcases rows with - | ⟨⟨id, createdAt, updatedAt⟩, more⟩
    · cases h
    · rw [firstCreated, CreatedRow.read] at h
      rcases id with - | id
      · cases h
      rcases createdAt with - | createdAt
      · cases h
      rcases updatedAt with - | updatedAt
      · cases h
      obtain rfl := Except.ok.inj h
      exact ⟨more, rfl⟩
  · rintro ⟨more, rfl⟩
    rfl

/-! ## The row of an order -/

/-- **A row that was read** is the row of the record. -/
theorem read_eq_ok_iff {row : OrderRow} {r : Record} : row.read = .ok r ↔ row = r.toRow := by
  constructor
  · intro h
    obtain ⟨id, user, total, status, transaction, method, createdAt, updatedAt⟩ := row
    rw [OrderRow.read] at h
    rcases id with - | id
    · cases h
    rcases user with - | user
    · cases h
    rcases total with - | total
    · cases h
    rcases status with - | status
    · cases h
    rcases createdAt with - | createdAt
    · cases h
    rcases updatedAt with - | updatedAt
    · cases h
    obtain rfl := Except.ok.inj h
    rfl
  · rintro rfl
    exact read_toRow r

/-- Records with the same row are the same. -/
theorem toRow_inj {r r' : Record} (h : r.toRow = r'.toRow) : r = r' := by
  have hread : r.toRow.read = .ok r' := read_eq_ok_iff.mpr h
  rw [read_toRow] at hread
  exact Except.ok.inj hread

theorem readStatus_eq_ok_iff {name : String} {s : Status} :
    readStatus name = .ok s ↔ name = s.name := by
  rw [← Status.ofName?_eq_some_iff, readStatus]
  cases Status.ofName? name <;> simp

theorem readMethod_eq_ok_iff {name : Option String} {m : Option Method} :
    readMethod name = .ok m ↔ name = m.map Method.name := by
  rcases name with - | name
  · cases m <;> simp [readMethod]
  · rw [readMethod]
    constructor
    · intro h
      split at h
      · rename_i known hknown
        obtain rfl := Except.ok.inj h
        rw [Method.ofName?_eq_some_iff.mp hknown]
        rfl
      · cases h
    · intro h
      rcases m with - | m
      · cases h
      · obtain rfl := Option.some.inj h
        rw [Method.ofName?_name]

/-- **An order is made of a record** if it is the record of the order. -/
theorem toOrder_eq_ok_iff {r : Record} {parts : List String} {v : Order} :
    r.toOrder parts = .ok v ↔ r = Record.ofOrder v ∧ parts = v.parts := by
  constructor
  · intro h
    rw [Record.toOrder] at h
    split at h
    · cases h
    · rename_i method hmethod
      split at h
      · cases h
      · rename_i status hstatus
        obtain rfl := Except.ok.inj h
        rw [readMethod_eq_ok_iff] at hmethod
        rw [readStatus_eq_ok_iff] at hstatus
        refine ⟨?_, rfl⟩
        rw [Record.ofOrder, ← hmethod, ← hstatus]
  · rintro ⟨rfl, rfl⟩
    exact toOrder_ofOrder v v.parts

/-- Orders with the same record and the same parts are the same. -/
theorem ofOrder_inj {v v' : Order} (h : Record.ofOrder v = Record.ofOrder v')
    (parts : v.parts = v'.parts) : v = v' := by
  have horder : (Record.ofOrder v).toOrder v.parts = .ok v' := toOrder_eq_ok_iff.mpr ⟨h, parts⟩
  rw [toOrder_ofOrder] at horder
  exact Except.ok.inj horder

end Sql

end OrderDesk
