import OrderDesk.Order.Basic
import OrderDesk.Store.Error

/-!
# Refusals of the desk

What the desk tells its callers when it does not do as asked.
-/

namespace OrderDesk

/-- **A refusal of the desk.** -/
inductive DeskError where
  | badRequest (reason : String)
  | partsNotFound (requested resolved : Nat)
  | orderNotFound (id : Uuid)
  | invalidStatus (id : Uuid) (status : Status)
  /-- The cause of a failed payment is not told. -/
  | paymentFailed
  | internal (reason : String)
  deriving DecidableEq

namespace DeskError

/-- The wording of a refusal. -/
def message : DeskError → String
  | badRequest reason => "Bad request: " ++ reason
  | partsNotFound requested resolved =>
    "Some parts were not found: requested " ++ toString requested ++ ", resolved "
      ++ toString resolved
  | orderNotFound id => "Order not found: " ++ id.toText
  | invalidStatus id status =>
    "Order " ++ id.toText ++ " is " ++ status.name ++ ", operation not allowed"
  | paymentFailed => "Payment failed"
  | internal reason => "Internal error: " ++ reason

/-- **What a refusal of the store means for a caller.** After a conflict someone else moved the
order first, and the caller's step is no longer legal. -/
def ofStore : StoreError → DeskError
  | .notFound id => orderNotFound id
  | .conflict id _ actual => invalidStatus id actual
  | .storage reason => internal reason

/-- A step that the order's status does not allow. -/
def ofOrder (o : Order) : DeskError := invalidStatus o.id o.status

end DeskError

end OrderDesk
