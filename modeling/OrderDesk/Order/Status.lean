/-!
# The life of an order

An order waits for its payment; it is paid or cancelled; a paid order is assembled.

## Main definitions

* `Status`, `Status.name`, `Status.ofName?`
* `Status.canBecome`: the legal steps
-/

namespace OrderDesk

/-- **Where an order stands.** -/
inductive Status where
  | pendingPayment
  | paid
  | cancelled
  | assembled
  deriving DecidableEq, Repr, Inhabited

namespace Status

/-- The name of a status in messages. -/
def name : Status → String
  | pendingPayment => "PENDING_PAYMENT"
  | paid => "PAID"
  | cancelled => "CANCELLED"
  | assembled => "ASSEMBLED"

instance : ToString Status := ⟨name⟩

/-- All statuses. -/
def all : List Status := [pendingPayment, paid, cancelled, assembled]

/-- The statuses by their names. -/
def known : List (String × Status) := all.map fun s => (s.name, s)

/-- The status of a name. -/
def ofName? (name : String) : Option Status := known.lookup name

/-- The refusal of a name that no status has. -/
def unknownMessage (name : String) : String := "unknown order status: " ++ name

theorem ofName?_name (s : Status) : ofName? s.name = some s := by
  cases s <;> decide

/-- **The legal steps**, and no others. -/
def canBecome : Status → Status → Bool
  | pendingPayment, paid => true
  | pendingPayment, cancelled => true
  | paid, assembled => true
  | _, _ => false

/-- A status that is never left. -/
def isTerminal : Status → Bool
  | cancelled | assembled => true
  | _ => false

theorem isTerminal_iff (s : Status) : s.isTerminal = true ↔ ∀ t, s.canBecome t = false := by
  cases s <;> simp [isTerminal, canBecome]
  · exact ⟨paid, rfl⟩
  · exact ⟨assembled, rfl⟩

/-- The statuses that may follow. -/
def successors (s : Status) : List Status := all.filter s.canBecome

end Status

end OrderDesk
