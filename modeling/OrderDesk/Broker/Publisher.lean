import OrderDesk.Broker.Error
import OrderDesk.Collaborator
import OrderDesk.Event.Json
import OrderDesk.Program

/-!
# Announcing by a broker

An event is announced as one record, keyed by the id of its order. A record that is too large, or is
for a topic with too long a name, is refused before it is sent.

## Main definitions

* `Broker.Record`, `Broker.Record.size`
* `Broker.publish`: a program that sends at most one record
-/

namespace OrderDesk.Broker

/-- **A record** for a topic. -/
structure Record where
  topic : String
  key : String
  payload : List UInt8
  deriving DecidableEq, Repr

/-- What a record takes up beside its key and its payload, at the most. -/
def Record.overhead : Nat := 36

/-- What a record takes up, at the most. -/
def Record.size (r : Record) : Nat :=
  overhead + r.key.utf8ByteSize + r.payload.length

/-- The largest record that is sent. -/
def Record.maxSize : Nat := 1000000

/-- What becomes of a record. -/
abbrev Delivery := Except Reason Unit

/-- The record of an event. -/
def record (topic : String) (event : PaidEvent) : Record :=
  let (key, payload) := event.encode
  { topic, key, payload }

/-- The failure behind a record that was refused. -/
def refusal (r : Reason) : PublishError :=
  .broker ("Message production error: " ++ r.message)

/-- **An event is announced** on a topic. -/
def publish (topic : String) (event : PaidEvent) :
    Program Record (fun _ => Delivery) (Except PublishError Unit) :=
  let record := record topic event
  if !Topic.isWritable topic then .done (.error (refusal .invalidArgument))
  else if Record.maxSize < record.size then .done (.error (refusal .tooLarge))
  else
    .ask record fun
      | .ok _ => .done (.ok ())
      | .error r => .done (.error (refusal r))

/-- **A client that announces** can be opened. -/
def openPublisher (brokers : String) : Except OpenError Unit :=
  if brokers.contains '\x00' then .error .nul else .ok ()

end OrderDesk.Broker
