import OrderDesk.Broker.Topic

/-!
# Failing brokers

Why a broker, or the client in front of it, refuses what it is asked.
-/

namespace OrderDesk.Broker

/-- **Why a record or a position was refused.** -/
inductive Reason where
  | timedOut
  | tooLarge
  | notAuthorized
  | policy
  | acknowledgements
  | invalidArgument
  deriving DecidableEq, Repr

namespace Reason

/-- The name of a reason. -/
def name : Reason → String
  | timedOut => "MessageTimedOut"
  | tooLarge => "MessageSizeTooLarge"
  | notAuthorized => "TopicAuthorizationFailed"
  | policy => "PolicyViolation"
  | acknowledgements => "InvalidRequiredAcks"
  | invalidArgument => "InvalidArgument"

/-- Where a reason arises, and what it is. -/
def description : Reason → String
  | timedOut => "Local: Message timed out"
  | tooLarge => "Broker: Message size too large"
  | notAuthorized => "Broker: Topic authorization failed"
  | policy => "Broker: Policy violation"
  | acknowledgements => "Broker: Invalid required acks value"
  | invalidArgument => "Local: Invalid argument or configuration"

/-- The wording of a reason. -/
def message (r : Reason) : String := r.name ++ " (" ++ r.description ++ ")"

end Reason

/-- **Why a client could not be opened.** -/
inductive OpenError where
  /-- A setting with a character that ends it. -/
  | nul
  /-- A consumer without a group. -/
  | noGroup
  /-- A consumer that is given the name of a topic with a NUL. -/
  | topicFault (fault : TopicFault)
  /-- A consumer without a topic, or with a pattern that is none. -/
  | noTopic
  deriving DecidableEq, Repr

/-- The wording of a client that could not be opened. -/
def OpenError.message : OpenError → String
  | nul => "FFI nul error"
  | noGroup => "Client creation error: rdkafka consumer queue not available"
  | topicFault fault => "Topic name is not UTF-8: " ++ fault.message
  | noTopic => "Subscription error: " ++ Reason.invalidArgument.description

end OrderDesk.Broker
