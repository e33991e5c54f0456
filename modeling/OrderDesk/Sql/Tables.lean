import OrderDesk.Sql.Repository

/-!
# The two tables

What each statement does to the tables of orders and of their parts. A statement is carried out as a
whole. What a transaction adds is kept apart until it is committed, and only the transaction itself
sees it before.

## Main definitions

* `Tables`, `Connection`
* `Connection.answer`: the answer to a statement and the tables behind it
-/

namespace OrderDesk.Sql

/-- **A row of the table of parts.** -/
structure PartRow where
  order : Uuid
  position : Int32
  part : String
  deriving DecidableEq

/-- **The tables**, each with its rows in the order in which they were added. -/
structure Tables where
  orders : List Record
  parts : List PartRow
  deriving DecidableEq

namespace Tables

/-- The tables without rows. -/
def empty : Tables := ⟨[], []⟩

/-- The tables with the rows of others behind their own. -/
def append (a b : Tables) : Tables := ⟨a.orders ++ b.orders, a.parts ++ b.parts⟩

/-- Whether there is an order with an id. -/
def hasOrder (t : Tables) (id : Uuid) : Bool := t.orders.any fun r => r.id == id

/-- Whether a place in an order is taken. -/
def hasPart (t : Tables) (order : Uuid) (position : Int32) : Bool :=
  t.parts.any fun r => r.order == order && r.position == position

/-- The rows of the orders with an id. -/
def ordersOf (t : Tables) (id : Uuid) : List Record := t.orders.filter fun r => r.id == id

/-- The rows of the parts of an order, by their places. -/
def partsOf (t : Tables) (order : Uuid) : List PartRow :=
  (t.parts.filter fun r => r.order == order).mergeSort fun a b => decide (a.position ≤ b.position)

/-- Whether a write changes a row. -/
def isMeant (id : Uuid) (expected : String) (r : Record) : Bool :=
  r.id == id && r.status == expected

/-- The tables after a write, as of `now`. -/
def revise (t : Tables) (id : Uuid) (expected status : String) (transaction method : Option String)
    (now : Instant) : Tables :=
  { t with orders := t.orders.map fun r =>
      if isMeant id expected r then { r with status, transaction, method, updatedAt := now }
      else r }

end Tables

/-- A row as it is returned. -/
def Record.toRow (r : Record) : OrderRow :=
  { id := some r.id, user := some r.user, total := some r.total, status := some r.status,
    transaction := r.transaction, method := r.method, createdAt := some r.createdAt,
    updatedAt := some r.updatedAt }

/-- **A connection** to the tables: what everybody sees, and what its transaction adds. -/
structure Connection where
  tables : Tables
  added : Tables
  deriving DecidableEq

namespace Connection

/-- The tables as the transaction sees them. -/
def view (c : Connection) : Tables := c.tables.append c.added

/-- The refusal of a row that breaks a rule of its table. -/
def violates (table rule : String) : String :=
  "new row for relation \"" ++ table ++ "\" violates check constraint \"" ++ rule ++ "\""

/-- The refusal of a row whose key is taken. -/
def duplicates (key : String) : String :=
  "duplicate key value violates unique constraint \"" ++ key ++ "\""

/-- The refusal of a part without its order. -/
def unmatched : String :=
  "insert or update on table \"order_parts\" violates foreign key constraint "
    ++ "\"order_parts_order_id_fkey\""

/-- **The answer to a statement**, given the id and the instant that the database makes up. -/
def answer (fresh : Uuid) (now : Instant) (s : Statement) (c : Connection) :
    s.Answer × Connection :=
  match s with
  | .beginTransaction | .rollback => (.ok (), { c with added := .empty })
  | .commit => (.ok (), ⟨c.view, .empty⟩)
  | .insertOrder user total status transaction method =>
    if total < 0 then (.error (violates "orders" "orders_total_price_check"), c)
    else if (Status.ofName? status).isNone then
      (.error (violates "orders" "orders_status_check"), c)
    else if c.view.hasOrder fresh then (.error (duplicates "orders_pkey"), c)
    else
      let row : Record := { id := fresh, user, total, status, transaction, method,
                            createdAt := now, updatedAt := now }
      (.ok [⟨some fresh, some now, some now⟩],
        { c with added := { c.added with orders := c.added.orders ++ [row] } })
  | .insertPart order position part =>
    if c.view.hasPart order position then (.error (duplicates "order_parts_pkey"), c)
    else if !c.view.hasOrder order then (.error unmatched, c)
    else
      (.ok (1 : Nat),
        { c with added := { c.added with parts := c.added.parts ++ [⟨order, position, part⟩] } })
  | .selectOrder id => (.ok ((c.view.ordersOf id).map Record.toRow), c)
  | .selectParts order => (.ok ((c.view.partsOf order).map fun r => some r.part), c)
  | .selectStatus id => (.ok ((c.view.ordersOf id).map fun r => some r.status), c)
  | .updateOrder status transaction method id expected =>
    (.ok ((c.tables.orders.filter (Tables.isMeant id expected)).length : Nat),
      { c with tables := c.tables.revise id expected status transaction method now })

end Connection

end OrderDesk.Sql
