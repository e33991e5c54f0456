import OrderDesk.Method
import OrderDesk.Uuid

/-!
# Events

What is told when an order is paid, what is heard when it is assembled, and the messages that
carry the latter.
-/

namespace OrderDesk

/-- **An order was paid**: told once its new status is stored. -/
structure PaidEvent where
  eventId : Uuid
  orderId : Uuid
  user : String
  method : Method
  transaction : String
  deriving DecidableEq

/-- **An order was assembled**: heard from those who build. -/
structure AssembledEvent where
  eventId : Uuid
  orderId : Uuid
  user : String
  buildSeconds : Int
  deriving DecidableEq

/-- **A message** of the feed of assembled orders. -/
structure Message where
  topic : String
  partition : Int
  offset : Int
  key : Option String
  payload : List UInt8
  deriving DecidableEq, Repr, Inhabited

end OrderDesk
