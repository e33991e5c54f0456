import OrderDesk.Collaborator
import OrderDesk.Desk.Error
import OrderDesk.Event.Basic
import OrderDesk.Part
import OrderDesk.Program
import OrderDesk.Tally

/-!
# What the desk asks

The desk holds no orders itself. It asks the inventory, the payment service, the announcer of
events, the store and the counters.
-/

namespace OrderDesk

/-- **A question of the desk** to one of those it works with. -/
inductive Call where
  | listParts (filter : PartsFilter)
  | charge (order : Uuid) (user : String) (method : Method)
  | publish (event : PaidEvent)
  | create (order : Order)
  | load (id : Uuid)
  | update (order : Order) (expected : Status)
  | count (tally : Tally)

/-- The answers to a question. -/
def Call.Answer : Call → Type
  | .listParts _ => Except ClientError (List Part)
  | .charge _ _ _ => Except ClientError String
  | .publish _ => Except PublishError Unit
  | .create _ => Except StoreError Order
  | .load _ => Except StoreError Order
  | .update _ _ => Except StoreError Unit
  | .count _ => Unit

/-- **A program of the desk**, with its result or its refusal. -/
abbrev Action (α : Type) := Program Call Call.Answer (Except DeskError α)

end OrderDesk
