import OrderDesk.Order.Basic
import OrderDesk.Sql.Statement
import OrderDesk.Store.Error

/-!
# Orders in a database

The calls of a store, as statements. A creation is one transaction; a write is one statement that
changes a row only while it has the expected status, and a look at the status tells why it did not.

## Main definitions

* `Sql.create`, `Sql.load`, `Sql.update`
* `OrderRow.read`, `Record.toOrder`: the order of a row and its parts
-/

namespace OrderDesk.Sql

/-- **A call of a store**, answered by statements. -/
abbrev StoreCall (α : Type) := Session (Except StoreError α)

/-- A call that failed for a reason of the database. -/
def failed {α : Type} (reason : String) : StoreCall α :=
  .done (.error (.storage reason))

/-- A statement, and what is done with what it returns. A statement that is refused ends the call.
-/
def send {α : Type} (s : Statement) (next : s.Result → StoreCall α) : StoreCall α :=
  .ask s fun
    | .ok result => next result
    | .error reason => failed (Fault.refused reason).message

/-- What was read, if it could be. -/
def proceed {α β : Type} (next : α → StoreCall β) : Except Fault α → StoreCall β
  | .ok a => next a
  | .error fault => failed fault.message

/-- **What happens within a transaction**: if it fails, all of it is taken back. -/
def orRollback {α : Type} (call : StoreCall α) : StoreCall α :=
  call.bind fun
    | .ok a => .done (.ok a)
    | .error e => .ask .rollback fun _ => .done (.error e)

/-! ## Creation -/

/-- What the database made up for a new order. -/
structure Created where
  id : Uuid
  createdAt : Instant
  updatedAt : Instant
  deriving DecidableEq

/-- The columns of a new row, which all have values. -/
def CreatedRow.read (row : CreatedRow) : Except Fault Created :=
  match required (.named "id") row.id with
  | .error fault => .error fault
  | .ok id =>
    match required (.named "created_at") row.createdAt with
    | .error fault => .error fault
    | .ok createdAt =>
      match required (.named "updated_at") row.updatedAt with
      | .error fault => .error fault
      | .ok updatedAt => .ok { id, createdAt, updatedAt }

/-- The first of the new rows. -/
def firstCreated : List CreatedRow → Except Fault Created
  | [] => .error .noRow
  | row :: _ => row.read

/-- The row of a new order. Its id and its instants are made up by the database. -/
def insertOrder (o : Order) : Statement :=
  .insertOrder o.user o.total o.status.name o.transaction (o.method.map Method.name)

/-- The rows of the parts, from `position` on, and what is done then. -/
def insertParts {α : Type} (order : Uuid) (next : StoreCall α) : Nat → List String → StoreCall α
  | _, [] => next
  | position, part :: rest =>
    send (.insertPart order (Int32.ofNat position) part) fun _ =>
      insertParts order next (position + 1) rest

/-- **A creation**: the order with the id and the instants that the database made up. -/
def create (o : Order) : StoreCall Order :=
  send .beginTransaction fun _ =>
    orRollback <| send (insertOrder o) fun rows =>
      proceed (fun created =>
        insertParts created.id
          (send .commit fun _ =>
            .done (.ok { o with
              id := created.id, createdAt := created.createdAt, updatedAt := created.updatedAt }))
          0 o.parts)
        (firstCreated rows)

/-! ## A look at an order -/

/-- A row of the table of orders whose columns have been read, names as they are. -/
structure Record where
  id : Uuid
  user : String
  total : Float
  status : String
  transaction : Option String
  method : Option String
  createdAt : Instant
  updatedAt : Instant
  deriving DecidableEq

/-- The columns of a row, in their order; only transaction and method may have no value. -/
def OrderRow.read (row : OrderRow) : Except Fault Record :=
  match required (.named "id") row.id with
  | .error fault => .error fault
  | .ok id =>
    match required (.named "user_id") row.user with
    | .error fault => .error fault
    | .ok user =>
      match required (.named "total_price") row.total with
      | .error fault => .error fault
      | .ok total =>
        match required (.named "status") row.status with
        | .error fault => .error fault
        | .ok status =>
          match required (.named "created_at") row.createdAt with
          | .error fault => .error fault
          | .ok createdAt =>
            match required (.named "updated_at") row.updatedAt with
            | .error fault => .error fault
            | .ok updatedAt =>
              .ok { id, user, total, status, transaction := row.transaction, method := row.method,
                    createdAt, updatedAt }

/-- The status of a name, or the refusal of the name. -/
def readStatus (name : String) : Except String Status :=
  match Status.ofName? name with
  | some status => .ok status
  | none => .error (Status.unknownMessage name)

/-- The method of a name that may be missing, or the refusal of the name. -/
def readMethod : Option String → Except String (Option Method)
  | none => .ok none
  | some name =>
    match Method.ofName? name with
    | some method => .ok (some method)
    | none => .error (Method.unknownMessage name)

/-- **The order of a row and its parts**, if its names are known; the method is looked at first. -/
def Record.toOrder (r : Record) (parts : List String) : Except String Order :=
  match readMethod r.method with
  | .error reason => .error reason
  | .ok method =>
    match readStatus r.status with
    | .error reason => .error reason
    | .ok status =>
      .ok { id := r.id, user := r.user, parts, total := r.total, status,
            transaction := r.transaction, method, createdAt := r.createdAt,
            updatedAt := r.updatedAt }

/-- The only column of each row. -/
def onlyColumns : List (Option String) → Except Fault (List String)
  | [] => .ok []
  | cell :: rest =>
    match required (.at 0) cell with
    | .error fault => .error fault
    | .ok text =>
      match onlyColumns rest with
      | .error fault => .error fault
      | .ok texts => .ok (text :: texts)

/-- **A look at an order.** -/
def load (id : Uuid) : StoreCall Order :=
  send (.selectOrder id) fun
    | [] => .done (.error (.notFound id))
    | row :: _ =>
      -- a row that cannot be read ends the look before its parts are asked for
      proceed (fun record =>
        send (.selectParts id) fun cells =>
          proceed (fun parts =>
            match record.toOrder parts with
            | .ok order => .done (.ok order)
            | .error reason => failed reason)
            (onlyColumns cells))
        row.read

/-! ## A write -/

/-- The row with another status and other payment details, while it has the expected status. -/
def updateOrder (o : Order) (expected : Status) : Statement :=
  .updateOrder o.status.name o.transaction (o.method.map Method.name) o.id expected.name

/-- Why a write changed nothing. -/
def explain (id : Uuid) (expected : Status) : StoreCall Unit :=
  send (.selectStatus id) fun
    | [] => .done (.error (.notFound id))
    | cell :: _ =>
      proceed (fun name =>
        match readStatus name with
        | .ok actual => .done (.error (.conflict id expected actual))
        | .error reason => failed reason)
        (required (.at 0) cell)

/-- **A write that compares first.** -/
def update (o : Order) (expected : Status) : StoreCall Unit :=
  send (updateOrder o expected) fun (changed : Nat) =>
    if 0 < changed then .done (.ok ()) else explain o.id expected

end OrderDesk.Sql
