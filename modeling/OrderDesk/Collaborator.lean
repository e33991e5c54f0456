/-!
# Failing collaborators

How the inventory, the payment service and the broker of events fail.
-/

namespace OrderDesk

/-- **A failed call** of the inventory or of the payment service. -/
inductive ClientError where
  | rejected (reason : String)
  | unavailable (reason : String)
  | timeout
  | transport (reason : String)
  deriving DecidableEq, Repr

/-- The wording of a failed call. -/
def ClientError.message : ClientError → String
  | rejected reason => "Upstream rejected the request: " ++ reason
  | unavailable reason => "Upstream unavailable: " ++ reason
  | timeout => "Upstream call timed out"
  | transport reason => "Transport error: " ++ reason

/-- **An event that was not announced.** -/
inductive PublishError where
  | serialization (reason : String)
  | broker (reason : String)
  deriving DecidableEq, Repr

/-- The wording of a failed announcement. -/
def PublishError.message : PublishError → String
  | serialization reason => "Failed to serialize event: " ++ reason
  | broker reason => "Broker rejected event: " ++ reason

end OrderDesk
