import OrderDesk.Order.Status
import OrderDesk.Uuid

/-!
# Failing stores

How a store of orders refuses a call.
-/

namespace OrderDesk

/-- **A refused call** of a store of orders. -/
inductive StoreError where
  | notFound (id : Uuid)
  /-- The order is not in the status that the caller expected. -/
  | conflict (id : Uuid) (expected actual : Status)
  | storage (reason : String)
  deriving DecidableEq

/-- The wording of a refused call. -/
def StoreError.message : StoreError → String
  | notFound id => "Order not found: " ++ id.toText
  | conflict id expected actual =>
    "Order " ++ id.toText ++ " was modified concurrently: expected " ++ expected.name
      ++ ", found " ++ actual.name
  | storage reason => "Storage error: " ++ reason

end OrderDesk
