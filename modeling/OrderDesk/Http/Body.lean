import OrderDesk.Order.Json

/-!
# Bodies of requests and responses

## Main definitions

* `PlaceRequest`, `PayRequest`: what is asked
* `PlaceReply`, `PayReply`, `OrderView`: what is answered
-/

namespace OrderDesk.Http

open Json (Value Field Shape required)

/-- **A request for a new order.** -/
structure PlaceRequest where
  user : String
  parts : List String
  deriving DecidableEq, Repr

namespace PlaceRequest

/-- The fields that have been read. -/
structure Draft where
  user : Option String
  parts : Option (List String)

/-- The request of a draft, or the name of the first field that is missing. -/
def Draft.toRequest (d : Draft) : Except String PlaceRequest := do
  let user ← required "user_uuid" d.user
  let parts ← required "part_uuids" d.parts
  .ok { user, parts }

/-- The shape of the request. -/
def shape : Shape Draft PlaceRequest where
  name := "CreateOrderRequest"
  fields := [
    .of "user_uuid" (·.user) (fun d v => { d with user := v }) Json.readString,
    .of "part_uuids" (·.parts) (fun d v => { d with parts := v })
      (Json.readList Json.readString)]
  start := ⟨none, none⟩
  finish := Draft.toRequest

end PlaceRequest

/-- **A request to pay an order.** -/
structure PayRequest where
  method : String
  deriving DecidableEq, Repr

/-- The shape of the request. -/
def PayRequest.shape : Shape (Option String) PayRequest where
  name := "PayOrderRequest"
  fields := [.of "payment_method" id (fun _ v => v) Json.readString]
  start := none
  finish := fun d => (required "payment_method" d).map PayRequest.mk

/-- **The answer to a new order.** -/
structure PlaceReply where
  id : Uuid
  total : Float
  deriving DecidableEq

namespace PlaceReply

/-- The written form of the answer. -/
def toJson (r : PlaceReply) : Value :=
  .object [("order_uuid", r.id.toJson), ("total_price", .ofFloat r.total)]

/-- The fields that have been read. -/
structure Draft where
  id : Option Uuid
  total : Option Float

/-- The answer of a draft, or the name of the first field that is missing. -/
def Draft.toReply (d : Draft) : Except String PlaceReply := do
  let id ← required "order_uuid" d.id
  let total ← required "total_price" d.total
  .ok { id, total }

/-- The shape of the answer. -/
def shape : Shape Draft PlaceReply where
  name := "CreateOrderResponse"
  fields := [
    .of "order_uuid" (·.id) (fun d v => { d with id := v }) Json.readUuid,
    .of "total_price" (·.total) (fun d v => { d with total := v }) Json.readDouble]
  start := ⟨none, none⟩
  finish := Draft.toReply

end PlaceReply

/-- **The answer to a payment.** -/
structure PayReply where
  transaction : String
  deriving DecidableEq, Repr

namespace PayReply

/-- The written form of the answer. -/
def toJson (r : PayReply) : Value :=
  .object [("transaction_uuid", .text r.transaction)]

/-- The shape of the answer. -/
def shape : Shape (Option String) PayReply where
  name := "PayOrderResponse"
  fields := [.of "transaction_uuid" id (fun _ v => v) Json.readString]
  start := none
  finish := fun d => (required "transaction_uuid" d).map PayReply.mk

end PayReply

/-- **An order as clients see it.** Its status is any name. -/
structure OrderView where
  id : Uuid
  user : String
  parts : List String
  total : Float
  transaction : Option String
  method : Option Method
  status : String
  createdAt : Instant
  updatedAt : Instant
  deriving DecidableEq

namespace OrderView

/-- The view of an order. -/
def ofOrder (o : Order) : OrderView where
  id := o.id
  user := o.user
  parts := o.parts
  total := o.total
  transaction := o.transaction
  method := o.method
  status := o.status.name
  createdAt := o.createdAt
  updatedAt := o.updatedAt

/-- The written form of the view. -/
def toJson (v : OrderView) : Value :=
  .object [
    ("order_uuid", v.id.toJson),
    ("user_uuid", .text v.user),
    ("part_uuids", .list (v.parts.map .text)),
    ("total_price", .ofFloat v.total),
    ("transaction_uuid", .ofOption .text v.transaction),
    ("payment_method", .ofOption Method.toJson v.method),
    ("status", .text v.status),
    ("created_at", v.createdAt.toJson),
    ("updated_at", v.updatedAt.toJson)]

/-- The fields that have been read. -/
structure Draft where
  id : Option Uuid
  user : Option String
  parts : Option (List String)
  total : Option Float
  transaction : Option (Option String)
  method : Option (Option Method)
  status : Option String
  createdAt : Option Instant
  updatedAt : Option Instant

/-- The view of a draft, or the name of the first field that is missing. -/
def Draft.toView (d : Draft) : Except String OrderView := do
  let id ← required "order_uuid" d.id
  let user ← required "user_uuid" d.user
  let parts ← required "part_uuids" d.parts
  let total ← required "total_price" d.total
  let status ← required "status" d.status
  let createdAt ← required "created_at" d.createdAt
  let updatedAt ← required "updated_at" d.updatedAt
  .ok { id, user, parts, total, transaction := d.transaction.getD none,
        method := d.method.getD none, status, createdAt, updatedAt }

/-- The shape of the view. -/
def shape : Shape Draft OrderView where
  name := "OrderResponse"
  fields := [
    .of "order_uuid" (·.id) (fun d v => { d with id := v }) Json.readUuid,
    .of "user_uuid" (·.user) (fun d v => { d with user := v }) Json.readString,
    .of "part_uuids" (·.parts) (fun d v => { d with parts := v })
      (Json.readList Json.readString),
    .of "total_price" (·.total) (fun d v => { d with total := v }) Json.readDouble,
    .of "transaction_uuid" (·.transaction) (fun d v => { d with transaction := v })
      (Json.readOption Json.readString),
    .of "payment_method" (·.method) (fun d v => { d with method := v })
      (Json.readOption Method.readJson),
    .of "status" (·.status) (fun d v => { d with status := v }) Json.readString,
    .of "created_at" (·.createdAt) (fun d v => { d with createdAt := v }) Json.readInstant,
    .of "updated_at" (·.updatedAt) (fun d v => { d with updatedAt := v }) Json.readInstant]
  start := ⟨none, none, none, none, none, none, none, none, none⟩
  finish := Draft.toView

end OrderView

end OrderDesk.Http
