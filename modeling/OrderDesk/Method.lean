/-!
# Payment methods

How a customer pays, by the names and the numbers that messages use.
-/

namespace OrderDesk

/-- **A payment method.** -/
inductive Method where
  | unknown
  | card
  | sbp
  | creditCard
  | investorMoney
  deriving DecidableEq, Repr, Inhabited

namespace Method

/-- The name of a method in messages. -/
def name : Method → String
  | unknown => "UNKNOWN"
  | card => "CARD"
  | sbp => "SBP"
  | creditCard => "CREDIT_CARD"
  | investorMoney => "INVESTOR_MONEY"

/-- All methods. -/
def all : List Method := [unknown, card, sbp, creditCard, investorMoney]

/-- The methods by their names. -/
def known : List (String × Method) := all.map fun m => (m.name, m)

/-- The method of a name. -/
def ofName? (name : String) : Option Method := known.lookup name

/-- The refusal of a name that no method has. -/
def unknownMessage (name : String) : String := "unknown payment method: " ++ name

theorem ofName?_name (m : Method) : ofName? m.name = some m := by
  cases m <;> decide

/-! ## Numbers -/

/-- The number of a method in binary messages. -/
def number : Method → Int32
  | unknown => 0
  | card => 1
  | sbp => 2
  | creditCard => 3
  | investorMoney => 4

/-- The method of a number. -/
def ofNumber? (n : Int32) : Option Method :=
  all.find? fun m => m.number == n

/-- The refusal of a number that no method has. -/
def unknownNumberMessage (n : Int32) : String :=
  "unknown enumeration value " ++ toString n.toInt

theorem ofNumber?_number (m : Method) : ofNumber? m.number = some m := by
  cases m <;> decide

end Method

end OrderDesk
