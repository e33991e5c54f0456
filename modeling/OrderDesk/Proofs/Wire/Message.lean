import Mathlib.Data.List.Flatten
import OrderDesk.Proofs.Wire.Layout
import OrderDesk.Wire.Message

/-!
# Messages that survive the wire

Every message of the inventory and of the payment service is read back from what is written of it.
Nothing that is left out is mistaken for something else, and only a price that is a negative zero
comes back without its sign.

## Main definitions

* `PartRecord.behindWire`, `ListPartsResponse.behindWire`: what comes back

## Main results

* `takes_encode` of each message: its fields turn the empty message into it
* `messages_survive`: each message is read back
-/

namespace OrderDesk.Wire

open Layout

/-! ## Sizes -/

/-- What is put together of rows is no shorter than any of them. -/
theorem length_le_flatMap {α : Type} (field : α → List UInt8) {as : List α} {a : α} (h : a ∈ as) :
    (field a).length ≤ (as.flatMap field).length := by
  have hsub : List.Sublist ([a].flatMap field) (as.flatMap field) :=
    (List.singleton_sublist.mpr h).flatMap field
  rw [List.flatMap_singleton] at hsub
  exact hsub.length_le

theorem length_le_delimited (tag : Nat) (content : List UInt8) :
    content.length ≤ (Field.delimited tag content).length := by
  rw [Field.delimited, List.length_append]
  exact Nat.le_add_left _ _

/-! ## The inventory -/

namespace PartsQuery

theorem takes_encode {depth : Nat} {m : PartsQuery} (short : m.encode.length < 2 ^ 64) :
    layout.Takes depth layout.empty m.encode m := by
  have hrow : layout.Takes depth layout.empty (m.uuids.flatMap (Field.textAlways 1))
      (m.uuids.foldl (fun m uuid => { m with uuids := m.uuids ++ [uuid] }) layout.empty) := by
    refine Takes.flatMap (fun uuid mem v => ?_) _
    refine takes_textAlways (by decide) (by decide) rfl rfl ?_
    exact Nat.lt_of_le_of_lt (length_le_flatMap _ mem) short
  have hall : ∀ (us : List String) (v : PartsQuery),
      us.foldl (fun m uuid => { m with uuids := m.uuids ++ [uuid] }) v = ⟨v.uuids ++ us⟩ := by
    intro us
    induction us with
    | nil => simp
    | cons u us ih => simp [ih]
  rw [hall] at hrow
  exact hrow

end PartsQuery

namespace ListPartsRequest

theorem takes_encode {depth : Nat} {m : ListPartsRequest} (short : m.encode.length < 2 ^ 64) :
    layout.Takes (depth + 1) layout.empty m.encode m := by
  obtain ⟨filter⟩ := m
  cases filter with
  | none => exact .nil
  | some query =>
    have hquery : query.encode.length < 2 ^ 64 :=
      Nat.lt_of_le_of_lt (length_le_delimited 1 _) short
    exact takes_message (by decide) (by decide) rfl (PartsQuery.takes_encode hquery) rfl short

end ListPartsRequest

namespace PartRecord

/-- **A part as it comes back.** -/
def behindWire (m : PartRecord) : PartRecord :=
  { m with price := afterWire m.price }

theorem takes_encode {depth : Nat} {m : PartRecord} (short : m.encode.length < 2 ^ 64) :
    layout.Takes depth layout.empty m.encode m.behindWire := by
  simp only [encode, List.length_append] at short
  have huuid : layout.Takes depth layout.empty (Field.text 1 m.uuid) ⟨m.uuid, "", "", 0⟩ :=
    takes_text (by decide) (by decide) rfl rfl rfl (by omega)
  have hname : layout.Takes depth ⟨m.uuid, "", "", 0⟩ (Field.text 2 m.name)
      ⟨m.uuid, m.name, "", 0⟩ :=
    takes_text (by decide) (by decide) rfl rfl rfl (by omega)
  have hdescription : layout.Takes depth ⟨m.uuid, m.name, "", 0⟩ (Field.text 3 m.description)
      ⟨m.uuid, m.name, m.description, 0⟩ :=
    takes_text (by decide) (by decide) rfl rfl rfl (by omega)
  have hprice : layout.Takes depth ⟨m.uuid, m.name, m.description, 0⟩ (Field.double 4 m.price)
      m.behindWire :=
    takes_double (by decide) (by decide) rfl rfl rfl
  exact ((huuid.append hname).append hdescription).append hprice

end PartRecord

namespace ListPartsResponse

/-- **The parts as they come back.** -/
def behindWire (m : ListPartsResponse) : ListPartsResponse :=
  ⟨m.parts.map PartRecord.behindWire⟩

theorem takes_encode {depth : Nat} {m : ListPartsResponse} (short : m.encode.length < 2 ^ 64) :
    layout.Takes (depth + 1) layout.empty m.encode m.behindWire := by
  have hrow : layout.Takes (depth + 1) layout.empty
      (m.parts.flatMap fun part => Field.delimited 1 part.encode)
      (m.parts.foldl (fun m part => { m with parts := m.parts ++ [part.behindWire] })
        layout.empty) := by
    refine Takes.flatMap (fun part mem v => ?_) _
    have hshort : (Field.delimited 1 part.encode).length < 2 ^ 64 :=
      Nat.lt_of_le_of_lt (length_le_flatMap (fun part => Field.delimited 1 part.encode) mem) short
    have hpart : part.encode.length < 2 ^ 64 :=
      Nat.lt_of_le_of_lt (length_le_delimited 1 _) hshort
    exact takes_message (by decide) (by decide) rfl (PartRecord.takes_encode hpart) rfl hshort
  have hall : ∀ (ps : List PartRecord) (v : ListPartsResponse),
      ps.foldl (fun m part => { m with parts := m.parts ++ [part.behindWire] }) v =
        ⟨v.parts ++ ps.map PartRecord.behindWire⟩ := by
    intro ps
    induction ps with
    | nil => simp
    | cons p ps ih => simp [ih]
  rw [hall] at hrow
  exact hrow

end ListPartsResponse

/-! ## The payment service -/

namespace PayOrderRequest

theorem takes_encode {depth : Nat} {m : PayOrderRequest} (short : m.encode.length < 2 ^ 64) :
    layout.Takes depth layout.empty m.encode m := by
  simp only [encode, List.length_append] at short
  have horder : layout.Takes depth layout.empty (Field.text 1 m.orderUuid) ⟨m.orderUuid, "", 0⟩ :=
    takes_text (by decide) (by decide) rfl rfl rfl (by omega)
  have huser : layout.Takes depth ⟨m.orderUuid, "", 0⟩ (Field.text 2 m.userUuid)
      ⟨m.orderUuid, m.userUuid, 0⟩ :=
    takes_text (by decide) (by decide) rfl rfl rfl (by omega)
  have hmethod : layout.Takes depth ⟨m.orderUuid, m.userUuid, 0⟩ (Field.enum 3 m.paymentMethod) m :=
    takes_enum (by decide) (by decide) rfl rfl rfl
  exact (horder.append huser).append hmethod

end PayOrderRequest

namespace PayOrderResponse

theorem takes_encode {depth : Nat} {m : PayOrderResponse} (short : m.encode.length < 2 ^ 64) :
    layout.Takes depth layout.empty m.encode m :=
  takes_text (by decide) (by decide) rfl rfl rfl short

end PayOrderResponse

/-! ## All messages -/

/-- **Each message survives the wire**, as long as it takes less than `2 ^ 64` bytes: it is read
back as it was written, but for a price that is a negative zero, which comes back as a zero. A
filter that is absent and a filter without ids are told apart. -/
theorem messages_survive :
    (∀ m : PartsQuery, m.encode.length < 2 ^ 64 → PartsQuery.layout.decode m.encode = .ok m) ∧
    (∀ m : ListPartsRequest, m.encode.length < 2 ^ 64 →
      ListPartsRequest.layout.decode m.encode = .ok m) ∧
    (∀ m : PartRecord, m.encode.length < 2 ^ 64 →
      PartRecord.layout.decode m.encode = .ok { m with
        price := if m.price = (-0.0 : Float).toBits then (0.0 : Float).toBits else m.price }) ∧
    (∀ m : ListPartsResponse, m.encode.length < 2 ^ 64 →
      ListPartsResponse.layout.decode m.encode = .ok ⟨m.parts.map fun part => { part with
        price := if part.price = (-0.0 : Float).toBits then (0.0 : Float).toBits
          else part.price }⟩) ∧
    (∀ m : PayOrderRequest, m.encode.length < 2 ^ 64 →
      PayOrderRequest.layout.decode m.encode = .ok m) ∧
    (∀ m : PayOrderResponse, m.encode.length < 2 ^ 64 →
      PayOrderResponse.layout.decode m.encode = .ok m) ∧
    ListPartsRequest.layout.decode (ListPartsRequest.encode ⟨none⟩) ≠
      ListPartsRequest.layout.decode (ListPartsRequest.encode ⟨some ⟨[]⟩⟩) := by
  have hnegative : (-0.0 : Float).toBits = 0x8000000000000000 := by decide +kernel
  have hzero : (0.0 : Float).toBits = 0 := by decide +kernel
  have hfilter : ∀ m : ListPartsRequest, m.encode.length < 2 ^ 64 →
      ListPartsRequest.layout.decode m.encode = .ok m :=
    fun m short => (ListPartsRequest.takes_encode short).decode
  rw [hnegative, hzero]
  refine ⟨fun m short => (PartsQuery.takes_encode short).decode, hfilter,
    fun m short => (PartRecord.takes_encode short).decode,
    fun m short => (ListPartsResponse.takes_encode short).decode,
    fun m short => (PayOrderRequest.takes_encode short).decode,
    fun m short => (PayOrderResponse.takes_encode short).decode, ?_⟩
  rw [hfilter ⟨none⟩ (by decide), hfilter ⟨some ⟨[]⟩⟩ (by decide +kernel)]
  simp

/-- A part without a name, at a price that is a negative zero. -/
def unnamed : PartRecord := ⟨"ü-1", "", "", 0x8000000000000000⟩

/-- Parts that are hardly described. The price of the last one is no number. -/
def sparse : ListPartsResponse := ⟨[unnamed, ⟨"", "", "", 0x7ff8000000000001⟩]⟩

/-- A request to charge without an order, by a method with a negative number. -/
def unordered : PayOrderRequest := ⟨"", "u", -1⟩

theorem messages_survive_unusual :
    sparse.encode.length < 2 ^ 64 ∧ unordered.encode.length < 2 ^ 64 ∧
    ListPartsResponse.layout.decode sparse.encode =
      .ok ⟨sparse.parts.map fun part => { part with
        price := if part.price = (-0.0 : Float).toBits then (0.0 : Float).toBits
          else part.price }⟩ ∧
    PayOrderRequest.layout.decode unordered.encode = .ok unordered := by
  have hparts : sparse.encode.length < 2 ^ 64 := by decide +kernel
  have hpay : unordered.encode.length < 2 ^ 64 := by decide +kernel
  exact ⟨hparts, hpay, messages_survive.2.2.2.1 _ hparts, messages_survive.2.2.2.2.1 _ hpay⟩

end OrderDesk.Wire
