import OrderDesk.Json.Record
import OrderDesk.Json.Value
import OrderDesk.Order.Basic
import OrderDesk.Part

/-!
# Orders and parts as JSON

The members of the written forms stand in the order of the fields. An absent transaction or method
is written as `null`, and may be left out of a text that is read.

## Main definitions

* `Order.toJson`, `Order.shape`
* `Part.toJson`, `Part.shape`, `PartsFilter.toJson`, `PartsFilter.shape`
* `Status.readJson`, `Method.readJson`
-/

namespace OrderDesk

open Json (Value Field Shape required)

/-- The reader of a status. -/
def Status.readJson (c : Json.Cursor) : Except Json.Error (Status × Json.Cursor) :=
  Json.readVariant Status.known c

/-- The reader of a payment method. -/
def Method.readJson (c : Json.Cursor) : Except Json.Error (Method × Json.Cursor) :=
  Json.readVariant Method.known c

/-- The written form of a status. -/
def Status.toJson (s : Status) : Value := .text s.name

/-- The written form of a payment method. -/
def Method.toJson (m : Method) : Value := .text m.name

/-- The written form of an identifier. -/
def Uuid.toJson (id : Uuid) : Value := .text id.toText

/-- The written form of an instant. -/
def Instant.toJson (t : Instant) : Value := .text t.toText

namespace Order

/-- The written form of an order. -/
def toJson (o : Order) : Value :=
  .object [
    ("order_id", o.id.toJson),
    ("user_id", .text o.user),
    ("part_ids", .list (o.parts.map .text)),
    ("total_price", .ofFloat o.total),
    ("status", o.status.toJson),
    ("transaction_id", .ofOption .text o.transaction),
    ("payment_method", .ofOption Method.toJson o.method),
    ("created_at", o.createdAt.toJson),
    ("updated_at", o.updatedAt.toJson)]

/-- The fields of an order that have been read. -/
structure Draft where
  id : Option Uuid
  user : Option String
  parts : Option (List String)
  total : Option Float
  status : Option Status
  transaction : Option (Option String)
  method : Option (Option Method)
  createdAt : Option Instant
  updatedAt : Option Instant

namespace Draft

/-- Nothing has been read. -/
def blank : Draft := ⟨none, none, none, none, none, none, none, none, none⟩

/-- The order of a draft, or the name of the first field that is missing. -/
def toOrder (d : Draft) : Except String Order := do
  let id ← required "order_id" d.id
  let user ← required "user_id" d.user
  let parts ← required "part_ids" d.parts
  let total ← required "total_price" d.total
  let status ← required "status" d.status
  let createdAt ← required "created_at" d.createdAt
  let updatedAt ← required "updated_at" d.updatedAt
  .ok { id, user, parts, total, status, transaction := d.transaction.getD none,
        method := d.method.getD none, createdAt, updatedAt }

end Draft

/-- **The shape of an order.** -/
def shape : Shape Draft Order where
  name := "Order"
  fields := [
    .of "order_id" (·.id) (fun d v => { d with id := v }) Json.readUuid,
    .of "user_id" (·.user) (fun d v => { d with user := v }) Json.readString,
    .of "part_ids" (·.parts) (fun d v => { d with parts := v }) (Json.readList Json.readString),
    .of "total_price" (·.total) (fun d v => { d with total := v }) Json.readDouble,
    .of "status" (·.status) (fun d v => { d with status := v }) Status.readJson,
    .of "transaction_id" (·.transaction) (fun d v => { d with transaction := v })
      (Json.readOption Json.readString),
    .of "payment_method" (·.method) (fun d v => { d with method := v })
      (Json.readOption Method.readJson),
    .of "created_at" (·.createdAt) (fun d v => { d with createdAt := v }) Json.readInstant,
    .of "updated_at" (·.updatedAt) (fun d v => { d with updatedAt := v }) Json.readInstant]
  start := .blank
  finish := Draft.toOrder

end Order

namespace Part

/-- The written form of a part. -/
def toJson (p : Part) : Value :=
  .object [("id", .text p.id), ("name", .text p.name), ("price", .ofFloat p.price)]

/-- The fields of a part that have been read. -/
structure Draft where
  id : Option String
  name : Option String
  price : Option Float

/-- The part of a draft, or the name of the first field that is missing. -/
def Draft.toPart (d : Draft) : Except String Part := do
  let id ← required "id" d.id
  let name ← required "name" d.name
  let price ← required "price" d.price
  .ok { id, name, price }

/-- The shape of a part. -/
def shape : Shape Draft Part where
  name := "Part"
  fields := [
    .of "id" (·.id) (fun d v => { d with id := v }) Json.readString,
    .of "name" (·.name) (fun d v => { d with name := v }) Json.readString,
    .of "price" (·.price) (fun d v => { d with price := v }) Json.readDouble]
  start := ⟨none, none, none⟩
  finish := Draft.toPart

end Part

namespace PartsFilter

/-- The written form of a filter. -/
def toJson (f : PartsFilter) : Value :=
  .object [("ids", .list (f.ids.map .text))]

/-- The shape of a filter. -/
def shape : Shape (Option (List String)) PartsFilter where
  name := "PartsFilter"
  fields := [.of "ids" id (fun _ v => v) (Json.readList Json.readString)]
  start := none
  finish := fun d => (required "ids" d).map PartsFilter.mk

end PartsFilter

end OrderDesk
