import OrderDesk.Proofs.Desk.Law
import OrderDesk.Proofs.Sql.Calls
import OrderDesk.Proofs.Traffic.Through

/-!
# What the calls of a store send

A visit that works with the tables asks the others as it always did, and sends statements for its
calls of the store. A call takes a connection of its own, so what its transaction has added is told
along with each of its statements.

## Main definitions

* `Query`, `onConnection`, `inDatabase`: a call as questions to the tables and to the others
* `Adding`: the statements of a creation that has not been committed
* `CallAsks`, `CallEnds`, `callLaw`: what a call may send after what it was answered, and how it may
  end

## Main results

* `keeps_call`: every call keeps its law
-/

namespace OrderDesk.Sql

/-- **A question of a visit that works with the tables**: one to the others, or a statement, sent by
somebody whose transaction has added some rows. -/
inductive Query where
  | outside (call : Call)
  | statement (added : Tables) (q : Statement)

/-- The answers to a question; that to a statement comes with what the transaction has added then.
-/
def Query.Answer : Query → Type
  | .outside call => call.Answer
  | .statement _ q => q.Answer × Tables

/-- Whether a question makes what was added visible to everybody. -/
def Query.commits : Query → Bool
  | .statement _ .commit => true
  | _ => false

/-- **Statements on a connection** whose transaction has added some rows. -/
def onConnection {α : Type} (added : Tables) : Session α → Program Query Query.Answer α
  | .done a => .done a
  | .ask q next => .ask (.statement added q) fun x => onConnection x.2 (next x.1)

/-- **A call, with the store in the tables.** -/
def inDatabase : (call : Call) → Program Query Query.Answer call.Answer
  | .create order => onConnection .empty (Sql.create order)
  | .load id => onConnection .empty (Sql.load id)
  | .update order expected => onConnection .empty (Sql.update order expected)
  | .listParts filter => .ask (.outside (.listParts filter)) .done
  | .charge order user method => .ask (.outside (.charge order user method)) .done
  | .publish event => .ask (.outside (.publish event)) .done
  | .count tally => .ask (.outside (.count tally)) .done

/-- An exchange with the tables or with the others. -/
abbrev Sent := Exchange Query Query.Answer

/-- **A statement was answered.** -/
def sent (added : Tables) (q : Statement) (a : q.Answer) (added' : Tables) : Sent :=
  ⟨.statement added q, (a, added')⟩

/-! ## The laws of the calls -/

/-- **The statements of a creation** that has not been committed: after these the transaction has
added the row of the order, and the rows of its first parts. -/
inductive Adding (o : Order) (made : Created) : List Sent → Tables → List String → Prop
  | order {begun added : Tables} {row : CreatedRow} {rows : List CreatedRow}
    (read : row.read = .ok made) :
    Adding o made [sent .empty .beginTransaction (.ok ()) begun,
      sent begun (insertOrder o) (.ok (row :: rows)) added] added []
  | part {zs : List Sent} {added : Tables} {done : List String}
    (adding : Adding o made zs added done) (part : String) (changed : Nat) (added' : Tables) :
    Adding o made (zs ++ [sent added
      (.insertPart made.id (Int32.ofNat done.length) part) (.ok changed) added']) added'
      (done ++ [part])

/-- **What a call may send** after what it was answered. -/
inductive CallAsks : Call → List Sent → Query → Prop
  | outside {call : Call} : CallAsks call [] (.outside call)
  | selectOrder {id : Uuid} : CallAsks (.load id) [] (.statement .empty (.selectOrder id))
  | selectParts {id : Uuid} {zs : List Sent} {added : Tables} :
    CallAsks (.load id) zs (.statement added (.selectParts id))
  | updateOrder {o : Order} {expected : Status} :
    CallAsks (.update o expected) [] (.statement .empty (updateOrder o expected))
  | selectStatus {o : Order} {expected : Status} {zs : List Sent} {added : Tables} :
    CallAsks (.update o expected) zs (.statement added (.selectStatus o.id))
  | begin {o : Order} : CallAsks (.create o) [] (.statement .empty .beginTransaction)
  | insertOrder {o : Order} {zs : List Sent} {added : Tables} :
    CallAsks (.create o) zs (.statement added (insertOrder o))
  | insertPart {o : Order} {zs : List Sent} {added : Tables} {id : Uuid} {position : Int32}
    {part : String} : CallAsks (.create o) zs (.statement added (.insertPart id position part))
  | commit {o : Order} {made : Created} {zs : List Sent} {added : Tables}
    (adding : Adding o made zs added o.parts) :
    CallAsks (.create o) zs (.statement added .commit)
  | rollback {o : Order} {zs : List Sent} {added : Tables} :
    CallAsks (.create o) zs (.statement added .rollback)

/-- **How a call may end** after what it was answered: an order is shown from a row that was read,
and stored once it is committed. Others answer at once. -/
def CallEnds : (call : Call) → List Sent → call.Answer → Prop
  | .load id, zs, a => ∀ v, a = .ok v → ∃ row rows added record parts,
      sent .empty (.selectOrder id) (.ok (row :: rows)) added ∈ zs ∧
      row.read = .ok record ∧ record.toOrder parts = .ok v
  | .create o, zs, a => ∀ v, a = .ok v → ∃ zs' added added' made,
      zs = zs' ++ [sent added .commit (.ok ()) added'] ∧ Adding o made zs' added o.parts ∧
      v = { o with id := made.id, createdAt := made.createdAt, updatedAt := made.updatedAt }
  | .update _ _, _, _ => True
  | .listParts filter, zs, a => zs = [⟨.outside (.listParts filter), a⟩]
  | .charge _ _ _, _, _ => True
  | .publish _, _, _ => True
  | .count _, _, _ => True

/-- **The law of a call.** -/
def callLaw (call : Call) : Law Query Query.Answer call.Answer := ⟨CallAsks call, CallEnds call⟩

theorem keeps_load (id : Uuid) : (inDatabase (.load id)).Keeps (callLaw (.load id)) [] := by
  refine ⟨.selectOrder, ?_⟩
  rintro ⟨reason | rows, added⟩
  · exact fun v hv => by cases hv
  cases rows with
  | nil => exact fun v hv => by cases hv
  | cons row rows =>
    simp only
    cases hread : row.read with
    | error fault => exact fun v hv => by cases hv
    | ok record =>
      refine ⟨.selectParts, ?_⟩
      rintro ⟨reason | cells, added'⟩
      · exact fun v hv => by cases hv
      simp only
      cases hcells : onlyColumns cells with
      | error fault => exact fun v hv => by cases hv
      | ok parts =>
        simp only [proceed]
        cases horder : record.toOrder parts with
        | error reason => exact fun v hv => by cases hv
        | ok v =>
          rintro v' hv'
          obtain rfl := Except.ok.inj hv'
          exact ⟨row, rows, added, record, parts, List.mem_cons_self, hread, horder⟩

theorem keeps_update (o : Order) (expected : Status) :
    (inDatabase (.update o expected)).Keeps (callLaw (.update o expected)) [] := by
  refine ⟨.updateOrder, ?_⟩
  rintro ⟨reason | changed, added⟩
  · trivial
  simp only
  split
  · trivial
  · refine ⟨.selectStatus, ?_⟩
    rintro ⟨reason | cells, added'⟩
    · trivial
    cases cells with
    | nil => trivial
    | cons cell cells =>
      simp only
      cases required (.at 0) cell with
      | error fault => trivial
      | ok name =>
        simp only [proceed]
        cases readStatus name <;> trivial

/-- A transaction that failed is taken back. -/
theorem keeps_rollback {o : Order} {e : StoreError} (added : Tables) (zs : List Sent) :
    (onConnection added (orRollback (.done (.error e) : StoreCall Order))).Keeps
      (callLaw (.create o)) zs :=
  ⟨.rollback, fun _ v hv => by cases hv⟩

theorem keeps_insertParts {o : Order} {made : Created} {zs : List Sent} {added : Tables}
    {done rest : List String} (adding : Adding o made zs added done)
    (all : done ++ rest = o.parts) :
    (onConnection added (orRollback (insertParts made.id (send .commit fun _ =>
      .done (.ok { o with
        id := made.id, createdAt := made.createdAt, updatedAt := made.updatedAt }))
      done.length rest))).Keeps (callLaw (.create o)) zs := by
  induction rest generalizing zs added done with
  | nil =>
    rw [List.append_nil] at all
    subst all
    refine ⟨.commit adding, ?_⟩
    rintro ⟨reason | _, added'⟩
    · exact keeps_rollback added' _
    · rintro v hv
      obtain rfl := Except.ok.inj hv
      exact ⟨zs, added, added', made, rfl, adding, rfl⟩
  | cons part rest ih =>
    refine ⟨.insertPart, ?_⟩
    rintro ⟨reason | changed, added'⟩
    · exact keeps_rollback added' _
    · have hrest := ih (adding.part part changed added') (by simpa using all)
      rw [List.length_append, List.length_singleton] at hrest
      exact hrest

theorem keeps_create (o : Order) : (inDatabase (.create o)).Keeps (callLaw (.create o)) [] := by
  refine ⟨.begin, ?_⟩
  rintro ⟨reason | _, begun⟩
  · exact fun v hv => by cases hv
  refine ⟨.insertOrder, ?_⟩
  rintro ⟨reason | rows, added⟩
  · exact keeps_rollback added _
  cases rows with
  | nil => exact keeps_rollback added _
  | cons row rows =>
    simp only [firstCreated]
    cases hread : row.read with
    | error fault => exact keeps_rollback added _
    | ok made => exact keeps_insertParts (.order hread) rfl

/-- **Every call keeps its law**, whatever it is answered. -/
theorem keeps_call (call : Call) : (inDatabase call).Keeps (callLaw call) [] := by
  cases call with
  | create order => exact keeps_create order
  | load id => exact keeps_load id
  | update order expected => exact keeps_update order expected
  | listParts filter => exact ⟨.outside, fun a => rfl⟩
  | charge order user method => exact ⟨.outside, fun a => trivial⟩
  | publish event => exact ⟨.outside, fun a => trivial⟩
  | count tally => exact ⟨.outside, fun a => trivial⟩

end OrderDesk.Sql
