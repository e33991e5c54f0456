import OrderDesk.Decimal.Layout
import OrderDesk.Order.Status

/-!
# Counters

What is counted while orders are served, and the text in which the counters are shown.

## Main definitions

* `Tally`: something that is counted
* `Counters`, `Counters.add`
* `Tally.grows`, `Counters.count`: what a counter takes
* `Counters.exposition`: the families in the order of their names
-/

namespace OrderDesk

/-- **Something that is counted**: a new order, its total, or a stored change of status. -/
inductive Tally where
  | created
  | earned (total : Float)
  | moved (status : Status)
  deriving DecidableEq

/-- **A counter only grows.** A total that is below zero or no number is not at least zero. -/
def Tally.grows : Tally → Bool
  | .created => true
  | .earned total => decide (0 ≤ total)
  | .moved _ => true

/-- **The counters**: new orders, their value, and changes of status. -/
structure Counters where
  created : Nat
  revenue : Float
  moved : Status → Nat

namespace Counters

/-- Nothing has been counted. -/
def zero : Counters := ⟨0, 0, fun _ => 0⟩

/-- One more thing is counted. -/
def add (c : Counters) : Tally → Counters
  | .created => { c with created := c.created + 1 }
  | .earned total => { c with revenue := c.revenue + total }
  | .moved status => { c with moved := fun s => if s = status then c.moved s + 1 else c.moved s }

/-- **One more thing is counted if its counter takes it.** A counter that would not grow breaks off
whoever counts. -/
def count (c : Counters) (tally : Tally) : Option Counters :=
  if tally.grows then some (c.add tally) else none

@[simp] theorem count_created (c : Counters) : c.count .created = some (c.add .created) := rfl

@[simp] theorem count_moved (c : Counters) (status : Status) :
    c.count (.moved status) = some (c.add (.moved status)) := rfl

theorem count_earned (c : Counters) (total : Float) :
    c.count (.earned total) = if 0 ≤ total then some (c.add (.earned total)) else none := by
  simp [count, Tally.grows]

/-- Whatever is counted is added. -/
theorem count_eq_some_iff {c c' : Counters} {tally : Tally} :
    c.count tally = some c' ↔ tally.grows = true ∧ c' = c.add tally := by
  cases grows : tally.grows with
  | false => simp [count, grows]
  | true => simp [count, grows, eq_comm]

/-- The lines that describe a family of counters. -/
def heading (name help : String) : String :=
  "# HELP " ++ name ++ " " ++ help ++ "\n# TYPE " ++ name ++ " counter\n"

/-- The line of a change of status, if it was ever counted. -/
def movedLine (c : Counters) (status : Status) : String :=
  if c.moved status = 0 then ""
  else
    "order_status_transitions_total\x7bstatus=\"" ++ status.name ++ "\"\x7d "
      ++ Decimal.plain (Float.ofNat (c.moved status)) ++ "\n"

/-- The changes of status, in the order of their names. -/
def movedLines (c : Counters) : String :=
  c.movedLine .assembled ++ c.movedLine .cancelled ++ c.movedLine .paid
    ++ c.movedLine .pendingPayment

/-- **The text of the counters**: a family without samples is left out. -/
def exposition (c : Counters) : String :=
  let moved := c.movedLines
  (if moved.isEmpty then ""
    else heading "order_status_transitions_total" "Persisted order status transitions" ++ moved)
    ++ heading "orders_revenue_total" "Total value of created orders"
    ++ "orders_revenue_total " ++ Decimal.plain c.revenue ++ "\n"
    ++ heading "orders_total" "Total number of orders created"
    ++ "orders_total " ++ Decimal.plain (Float.ofNat c.created) ++ "\n"

end Counters

end OrderDesk
