import OrderDesk.Instant.Basic
import OrderDesk.Order.Status
import OrderDesk.Program
import OrderDesk.Sql.Error
import OrderDesk.Uuid

/-!
# Statements

Orders are kept in two tables: one row an order, and one row a part with its place in the order.
These are the statements that are sent for them, each with its text, its parameters and the rows
that it returns. Any value of a returned row may be missing.

## Main definitions

* `Sql.Statement`, `Sql.Statement.text`, `Sql.Statement.params?`
* `Sql.Statement.Result`, `Sql.Statement.Answer`
* `Sql.Session`: a program that sends statements

## Main results

* `placeholders_text`: each parameter has its place in the text
-/

namespace OrderDesk.Sql

/-- **A parameter** of a statement. -/
inductive Param where
  | uuid (id : Uuid)
  | text (value : String)
  | double (x : Float)
  | int (n : Int32)
  | null
  deriving DecidableEq

/-- A text that may be missing, as a parameter. -/
def Param.ofText? : Option String → Param
  | some value => .text value
  | none => .null

/-- **What the database makes up** for a new order. -/
structure CreatedRow where
  id : Option Uuid
  createdAt : Option Instant
  updatedAt : Option Instant
  deriving DecidableEq

/-- **A row of the table of orders.** -/
structure OrderRow where
  id : Option Uuid
  user : Option String
  total : Option Float
  status : Option String
  transaction : Option String
  method : Option String
  createdAt : Option Instant
  updatedAt : Option Instant
  deriving DecidableEq

/-- **A statement.** -/
inductive Statement where
  | beginTransaction
  | commit
  | rollback
  | insertOrder (user : String) (total : Float) (status : String)
      (transaction method : Option String)
  | insertPart (order : Uuid) (position : Int32) (part : String)
  | selectOrder (id : Uuid)
  | selectParts (order : Uuid)
  | selectStatus (id : Uuid)
  | updateOrder (status : String) (transaction method : Option String) (id : Uuid)
      (expected : String)
  deriving DecidableEq

namespace Statement

/-- The text of a statement, with its parameters numbered. -/
def text : Statement → String
  | beginTransaction => "BEGIN"
  | commit => "COMMIT"
  | rollback => "ROLLBACK"
  | insertOrder .. =>
    "INSERT INTO orders (user_id, total_price, status, transaction_id, payment_method) "
      ++ "VALUES ($1, $2, $3, $4, $5) RETURNING id, created_at, updated_at"
  | insertPart .. => "INSERT INTO order_parts (order_id, position, part_id) VALUES ($1, $2, $3)"
  | selectOrder _ =>
    "SELECT id, user_id, total_price, status, transaction_id, payment_method, created_at, "
      ++ "updated_at FROM orders WHERE id = $1"
  | selectParts _ => "SELECT part_id FROM order_parts WHERE order_id = $1 ORDER BY position"
  | selectStatus _ => "SELECT status FROM orders WHERE id = $1"
  | updateOrder .. =>
    "UPDATE orders SET status = $1, transaction_id = $2, payment_method = $3, updated_at = NOW() "
      ++ "WHERE id = $4 AND status = $5"

/-- The parameters of a statement; the ones that frame a transaction have none at all. -/
def params? : Statement → Option (List Param)
  | beginTransaction | commit | rollback => none
  | insertOrder user total status transaction method =>
    some [.text user, .double total, .text status, .ofText? transaction, .ofText? method]
  | insertPart order position part => some [.uuid order, .int position, .text part]
  | selectOrder id | selectStatus id => some [.uuid id]
  | selectParts order => some [.uuid order]
  | updateOrder status transaction method id expected =>
    some [.text status, .ofText? transaction, .ofText? method, .uuid id, .text expected]

/-- The numbers behind the dollar signs of a text. -/
def placeholders : List Char → List Nat
  | '$' :: rest => Nat.ofDigitChars 10 (rest.takeWhile Char.isDigit) 0 :: placeholders rest
  | _ :: rest => placeholders rest
  | [] => []

/-- **Each parameter has its place in the text**: they are named by their numbers, in order. -/
theorem placeholders_text (s : Statement) :
    placeholders s.text.toList = List.range' 1 (s.params?.getD []).length := by
  cases s with
  | beginTransaction | commit | rollback => decide +kernel
  | insertOrder =>
    have named : placeholders (insertOrder "" 0 "" none none).text.toList = [1, 2, 3, 4, 5] := by
      decide +kernel
    exact named
  | insertPart =>
    have named : placeholders (insertPart .nil 0 "").text.toList = [1, 2, 3] := by decide +kernel
    exact named
  | selectOrder =>
    have named : placeholders (selectOrder .nil).text.toList = [1] := by decide +kernel
    exact named
  | selectParts =>
    have named : placeholders (selectParts .nil).text.toList = [1] := by decide +kernel
    exact named
  | selectStatus =>
    have named : placeholders (selectStatus .nil).text.toList = [1] := by decide +kernel
    exact named
  | updateOrder =>
    have named : placeholders (updateOrder "" none none .nil "").text.toList = [1, 2, 3, 4, 5] := by
      decide +kernel
    exact named

/-- **What a statement returns**: rows, or the number of rows that it changed. -/
def Result : Statement → Type
  | beginTransaction | commit | rollback => Unit
  | insertOrder .. => List CreatedRow
  | insertPart .. => Nat
  | selectOrder _ => List OrderRow
  | selectParts _ | selectStatus _ => List (Option String)
  | updateOrder .. => Nat

/-- The answer to a statement: what it returns, or why the database refused it. -/
abbrev Answer (s : Statement) : Type := Except String s.Result

end Statement

/-- **A program that sends statements**, one after the other. -/
abbrev Session (α : Type) := Program Statement Statement.Answer α

end OrderDesk.Sql
