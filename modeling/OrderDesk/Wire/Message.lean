import OrderDesk.Method
import OrderDesk.Part
import OrderDesk.Wire.Layout

/-!
# Messages of the inventory and of the payment service

The messages that the desk sends or reads, each with its writer and its layout. Fields are written
in the order of their tags, and those with a default value are left out. Prices are kept by their
bits, so that they pass through unchanged.

## Main definitions

* `PartsQuery`, `ListPartsRequest`, `PartRecord`, `ListPartsResponse`
* `PayOrderRequest`, `PayOrderResponse`
-/

namespace OrderDesk.Wire

/-! ## The inventory -/

/-- **A filter**: the ids that are asked for. -/
structure PartsQuery where
  uuids : List String
  deriving DecidableEq, Repr

namespace PartsQuery

/-- The bytes of a filter: a field with tag 1 for each id, an empty one too. -/
def encode (m : PartsQuery) : List UInt8 :=
  m.uuids.flatMap (Field.textAlways 1)

/-- The fields of a filter: the ids with tag 1, one after the other. -/
def layout : Layout PartsQuery where
  name := "PartsFilter"
  empty := ⟨[]⟩
  slot?
    | 1 => some (Slot.text "uuids" fun m uuid => { m with uuids := m.uuids ++ [uuid] })
    | _ => none

end PartsQuery

/-- **A request for parts.** -/
structure ListPartsRequest where
  filter : Option PartsQuery
  deriving DecidableEq, Repr

namespace ListPartsRequest

/-- The bytes of a request for parts: its filter with tag 1, if there is one. -/
def encode (m : ListPartsRequest) : List UInt8 :=
  match m.filter with
  | none => []
  | some query => Field.delimited 1 query.encode

/-- The fields of a request for parts: filters with tag 1 are merged. -/
def layout : Layout ListPartsRequest where
  name := "ListPartsRequest"
  empty := ⟨none⟩
  slot?
    | 1 => some (Slot.message "filter" PartsQuery.layout
        (fun m => m.filter.getD PartsQuery.layout.empty)
        fun m query => { m with filter := some query })
    | _ => none

end ListPartsRequest

/-- **A part** as the inventory describes it. -/
structure PartRecord where
  uuid : String
  name : String
  description : String
  /-- The bits of the price. -/
  price : UInt64
  deriving DecidableEq, Repr

namespace PartRecord

/-- The bytes of a part: its texts with the tags 1 to 3, and its price with tag 4. -/
def encode (m : PartRecord) : List UInt8 :=
  Field.text 1 m.uuid ++ Field.text 2 m.name ++ Field.text 3 m.description ++ Field.double 4 m.price

/-- The fields of a part; of several with one tag the last one counts. -/
def layout : Layout PartRecord where
  name := "Part"
  empty := ⟨"", "", "", 0⟩
  slot?
    | 1 => some (Slot.text "uuid" fun m uuid => { m with uuid })
    | 2 => some (Slot.text "name" fun m name => { m with name })
    | 3 => some (Slot.text "description" fun m description => { m with description })
    | 4 => some (Slot.double "price" fun m price => { m with price })
    | _ => none

/-- What the desk keeps of a part. -/
def toPart (m : PartRecord) : Part :=
  { id := m.uuid, name := m.name, price := Float.ofBits m.price }

end PartRecord

/-- **The parts that were found.** -/
structure ListPartsResponse where
  parts : List PartRecord
  deriving DecidableEq, Repr

namespace ListPartsResponse

/-- The bytes of the parts that were found: a field with tag 1 for each. -/
def encode (m : ListPartsResponse) : List UInt8 :=
  m.parts.flatMap fun part => Field.delimited 1 part.encode

/-- The fields of the parts that were found: each with tag 1, one after the other. -/
def layout : Layout ListPartsResponse where
  name := "ListPartsResponse"
  empty := ⟨[]⟩
  slot?
    | 1 => some (Slot.message "parts" PartRecord.layout
        (fun _ => PartRecord.layout.empty) fun m part => { m with parts := m.parts ++ [part] })
    | _ => none

end ListPartsResponse

/-! ## The payment service -/

/-- **A request to charge.** The method is a number, known or not. -/
structure PayOrderRequest where
  orderUuid : String
  userUuid : String
  paymentMethod : Int32
  deriving DecidableEq, Repr

namespace PayOrderRequest

/-- The bytes of a request to charge: its texts with the tags 1 and 2, and its method with tag 3. -/
def encode (m : PayOrderRequest) : List UInt8 :=
  Field.text 1 m.orderUuid ++ Field.text 2 m.userUuid ++ Field.enum 3 m.paymentMethod

/-- The fields of a request to charge; of several with one tag the last one counts. -/
def layout : Layout PayOrderRequest where
  name := "PayOrderRequest"
  empty := ⟨"", "", 0⟩
  slot?
    | 1 => some (Slot.text "order_uuid" fun m orderUuid => { m with orderUuid })
    | 2 => some (Slot.text "user_uuid" fun m userUuid => { m with userUuid })
    | 3 => some (Slot.enum "payment_method" fun m paymentMethod => { m with paymentMethod })
    | _ => none

/-- The method of a request; a number that no method has stands for none in particular. -/
def method (m : PayOrderRequest) : Method :=
  (Method.ofNumber? m.paymentMethod).getD .unknown

end PayOrderRequest

/-- **A charge that was made.** -/
structure PayOrderResponse where
  transactionUuid : String
  deriving DecidableEq, Repr

namespace PayOrderResponse

/-- The bytes of a charge that was made: its transaction with tag 1. -/
def encode (m : PayOrderResponse) : List UInt8 :=
  Field.text 1 m.transactionUuid

/-- The fields of a charge that was made; of several transactions the last one counts. -/
def layout : Layout PayOrderResponse where
  name := "PayOrderResponse"
  empty := ⟨""⟩
  slot?
    | 1 => some (Slot.text "transaction_uuid" fun m transactionUuid => { m with transactionUuid })
    | _ => none

end PayOrderResponse

end OrderDesk.Wire
