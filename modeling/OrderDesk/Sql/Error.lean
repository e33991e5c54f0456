/-!
# Failing databases

What can go wrong with one statement and with what it returns.
-/

namespace OrderDesk.Sql

/-- **A column of a row**, by its name or by its place. -/
inductive Column where
  | named (name : String)
  | at (place : Nat)
  deriving DecidableEq, Repr

/-- The wording of a column. -/
def Column.label : Column → String
  | named name => "\"" ++ name ++ "\""
  | .at place => toString place

/-- **What went wrong** with a statement. -/
inductive Fault where
  /-- The database refused it. -/
  | refused (reason : String)
  /-- It returned no row where there must be one. -/
  | noRow
  /-- It returned no value where there must be one. -/
  | null (column : Column)
  deriving DecidableEq, Repr

/-- The wording of a fault. -/
def Fault.message : Fault → String
  | refused reason => "error returned from database: " ++ reason
  | noRow => "no rows returned by a query that expected to return at least one row"
  | null column =>
    "error occurred while decoding column " ++ column.label
      ++ ": unexpected null; try decoding as an `Option`"

/-- The value of a column that must have one. -/
def required {α : Type} (column : Column) : Option α → Except Fault α
  | some a => .ok a
  | none => .error (.null column)

end OrderDesk.Sql
