import OrderDesk.Event.Basic
import OrderDesk.Order.Json

/-!
# Events as JSON

## Main definitions

* `PaidEvent.toJson`, `PaidEvent.shape`, `PaidEvent.encode`: the payload that is told, and its key
* `AssembledEvent.toJson`, `AssembledEvent.shape`
-/

namespace OrderDesk

open Json (Value Field Shape required)

namespace PaidEvent

/-- The written form of the event. -/
def toJson (e : PaidEvent) : Value :=
  .object [
    ("event_id", e.eventId.toJson),
    ("order_id", e.orderId.toJson),
    ("user_id", .text e.user),
    ("payment_method", e.method.toJson),
    ("transaction_id", .text e.transaction)]

/-- The fields of the event that have been read. -/
structure Draft where
  eventId : Option Uuid
  orderId : Option Uuid
  user : Option String
  method : Option Method
  transaction : Option String

/-- The event of a draft, or the name of the first field that is missing. -/
def Draft.toEvent (d : Draft) : Except String PaidEvent := do
  let eventId ← required "event_id" d.eventId
  let orderId ← required "order_id" d.orderId
  let user ← required "user_id" d.user
  let method ← required "payment_method" d.method
  let transaction ← required "transaction_id" d.transaction
  .ok { eventId, orderId, user, method, transaction }

/-- The shape of the event. -/
def shape : Shape Draft PaidEvent where
  name := "OrderPaidEvent"
  fields := [
    .of "event_id" (·.eventId) (fun d v => { d with eventId := v }) Json.readUuid,
    .of "order_id" (·.orderId) (fun d v => { d with orderId := v }) Json.readUuid,
    .of "user_id" (·.user) (fun d v => { d with user := v }) Json.readString,
    .of "payment_method" (·.method) (fun d v => { d with method := v }) Method.readJson,
    .of "transaction_id" (·.transaction) (fun d v => { d with transaction := v }) Json.readString]
  start := ⟨none, none, none, none, none⟩
  finish := Draft.toEvent

/-- **The record that announces a payment**: keyed by the order, so that all events of one order
share a partition, with the written form as payload. -/
def encode (e : PaidEvent) : String × List UInt8 :=
  (e.orderId.toText, Text.Utf8.encode e.toJson.renderChars)

end PaidEvent

namespace AssembledEvent

/-- The written form of the event. -/
def toJson (e : AssembledEvent) : Value :=
  .object [
    ("event_id", e.eventId.toJson),
    ("order_id", e.orderId.toJson),
    ("user_id", .text e.user),
    ("build_time_seconds", .ofInt e.buildSeconds)]

/-- The fields of the event that have been read. -/
structure Draft where
  eventId : Option Uuid
  orderId : Option Uuid
  user : Option String
  buildSeconds : Option Int

/-- The event of a draft, or the name of the first field that is missing. -/
def Draft.toEvent (d : Draft) : Except String AssembledEvent := do
  let eventId ← required "event_id" d.eventId
  let orderId ← required "order_id" d.orderId
  let user ← required "user_id" d.user
  let buildSeconds ← required "build_time_seconds" d.buildSeconds
  .ok { eventId, orderId, user, buildSeconds }

/-- The shape of the event. -/
def shape : Shape Draft AssembledEvent where
  name := "OrderAssembledEvent"
  fields := [
    .of "event_id" (·.eventId) (fun d v => { d with eventId := v }) Json.readUuid,
    .of "order_id" (·.orderId) (fun d v => { d with orderId := v }) Json.readUuid,
    .of "user_id" (·.user) (fun d v => { d with user := v }) Json.readString,
    .of "build_time_seconds" (·.buildSeconds) (fun d v => { d with buildSeconds := v })
      Json.readInt64]
  start := ⟨none, none, none, none⟩
  finish := Draft.toEvent

end AssembledEvent

end OrderDesk
