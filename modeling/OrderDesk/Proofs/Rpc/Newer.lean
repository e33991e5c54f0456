import OrderDesk.Proofs.Rpc.Outcome
import OrderDesk.Proofs.Traffic.Reaches
import OrderDesk.Proofs.Wire.Unknown

/-!
# Peers that tell more

The inventory and the payment service may send fields that the desk does not know: at the outside of
a reply, or in any of its parts. The same message is read, and as long as the reply is not too large,
the same parts or the same transaction are made of it.

## Main definitions

* `ListPartsResponse.Widened`: a list of parts with one field more

## Main results

* `ListPartsResponse.exact`, `PartRecord.exact`, `PayOrderResponse.exact`: the layouts that are read
* `newer_peers_understood`: replies with one field more
-/

namespace OrderDesk

namespace Wire

open Layout

theorem PartRecord.exact : PartRecord.layout.Exact := by
  intro tag slot known
  simp only [layout] at known
  split at known <;> cases known
  · exact Slot.exact_text _ _
  · exact Slot.exact_text _ _
  · exact Slot.exact_text _ _
  · exact Slot.exact_double _ _

theorem ListPartsResponse.exact : ListPartsResponse.layout.Exact := by
  intro tag slot known
  simp only [layout] at known
  split at known <;> cases known
  exact PartRecord.exact.message _ _ _

theorem PayOrderResponse.exact : PayOrderResponse.layout.Exact := by
  intro tag slot known
  simp only [layout] at known
  split at known <;> cases known
  exact Slot.exact_text _ _

/-- **A list of parts with one field more**, at the outside or in one of its parts. The length of
such a part is adjusted, in any spelling. -/
inductive ListPartsResponse.Widened : List UInt8 → List UInt8 → Prop
  | outside {bytes more : List UInt8} (widened : layout.Widened maxDepth bytes more) :
      Widened bytes more
  | inside {level : Nat} {tags : List Nat} {before key size size' part more behind : List UInt8}
      (boundary : Fields level tags before) (spells : Key.Spells key ⟨1, .delimited⟩)
      (length : Varint.Spells 10 size part.length)
      (widened : PartRecord.layout.Widened (maxDepth - 1) part more)
      (length' : Varint.Spells 10 size' more.length) :
      Widened (before ++ (key ++ (size ++ part) ++ behind))
        (before ++ (key ++ (size' ++ more) ++ behind))

/-- **One field more** changes no list of parts. -/
theorem ListPartsResponse.Widened.decode {bytes more : List UInt8} {m : ListPartsResponse}
    (widened : Widened bytes more) (h : layout.decode bytes = .ok m) :
    layout.decode more = .ok m := by
  cases widened with
  | outside widened => exact widened.decode exact h
  | inside boundary spells length widened length' =>
    exact (widened.takes_inside exact PartRecord.exact rfl boundary spells length length'
      ((decode_iff exact).mp h)).decode

end Wire

namespace Rpc

open Wire Wire.Layout Inventory Payment
open Program (Reaches)

variable {bytes more : List UInt8}

/-- A call whose reply is not too large and can be read comes to what is made of the message. -/
theorem reaches_call {M α : Type} {layout : Layout M} {m : M} (request : Request) (result : M → α)
    (text : String) (small : bytes.length ≤ sizeLimit) (h : layout.decode bytes = .ok m) :
    (call request layout result).Reaches [⟨request, .answered (some bytes) 0 text⟩]
      (.done (.ok (result m))) := by
  refine .on ?_
  rw [Reply.read_of_decode small h text]
  exact .here _

/-- **Newer peers are understood.** A reply with one field more, of any tag that the desk does not
know, of any layout and with groups nested as deep as they may be, and between any two fields of the
reply or of one of its parts, is read as without it, for every list of parts, every part and every
charge that can be read at all. So if the reply with that field is not too large, the same parts,
with their ids, names and prices in order, or the same transaction come of it. -/
theorem newer_peers_understood :
    (∀ {bytes more : List UInt8} {m : ListPartsResponse}, ListPartsResponse.Widened bytes more →
      ListPartsResponse.layout.decode bytes = .ok m →
        ListPartsResponse.layout.decode more = .ok m ∧
        ∀ filter text, more.length ≤ sizeLimit → (listParts filter).Reaches
          [⟨listPartsRequest filter, .answered (some more) 0 text⟩]
          (.done (.ok (m.parts.map fun part =>
            ⟨part.uuid, part.name, Float.ofBits part.price⟩)))) ∧
    (∀ {bytes more : List UInt8} {m : PartRecord}, PartRecord.layout.Widened maxDepth bytes more →
      PartRecord.layout.decode bytes = .ok m → PartRecord.layout.decode more = .ok m) ∧
    ∀ {bytes more : List UInt8} {m : PayOrderResponse},
      PayOrderResponse.layout.Widened maxDepth bytes more →
        PayOrderResponse.layout.decode bytes = .ok m →
          PayOrderResponse.layout.decode more = .ok m ∧
          ∀ order user method text, more.length ≤ sizeLimit →
            (payOrder order user method).Reaches
              [⟨payOrderRequest order user method, .answered (some more) 0 text⟩]
              (.done (.ok m.transactionUuid)) := by
  refine ⟨fun widened h => ?_, fun widened h => widened.decode PartRecord.exact h,
    fun widened h => ?_⟩
  · have hmore := widened.decode h
    exact ⟨hmore, fun filter text small => reaches_call _ _ text small hmore⟩
  · have hmore := widened.decode PayOrderResponse.exact h
    exact ⟨hmore, fun order user method text small => reaches_call _ _ text small hmore⟩

/-- A group with the tag 16 and a group inside, which holds a number that is not written with the
fewest bytes. -/
def novelty : List UInt8 :=
  [0x83, 0x01] ++ ([0x0B] ++ ([0x10] ++ [0x81, 0x00]) ++ [0x0C]) ++ [0x84, 0x01]

/-- The id of a part. -/
def idField : List UInt8 := [0x0A] ++ ([1] ++ [0x70])

/-- The name of a part, which comes twice. -/
def nameFields : List UInt8 := [0x12, 1, 0x61, 0x12, 1, 0x62]

/-- A list of one part as the desk knows it. -/
def olderReply : List UInt8 := [0x0A] ++ ([9] ++ (idField ++ nameFields))

/-- The same list with one field more in the part. -/
def newerReply : List UInt8 := [0x0A] ++ ([0x92, 0x00] ++ (idField ++ novelty ++ nameFields))

theorem newer_peers_understood_group :
    ListPartsResponse.layout.decode olderReply = .ok ⟨[⟨"p", "b", "", 0⟩]⟩ ∧
    ∀ filter, (listParts filter).Reaches
      [⟨listPartsRequest filter, .answered (some newerReply) 0 ""⟩]
      (.done (.ok [⟨"p", "b", Float.ofBits 0⟩])) := by
  have hdecode : ListPartsResponse.layout.decode olderReply = .ok ⟨[⟨"p", "b", "", 0⟩]⟩ := by
    decide +kernel
  have hkey : Key.Spells [0x0A] ⟨1, .delimited⟩ :=
    ⟨.last (by decide) (by decide), by decide, by decide⟩
  have hid : Fields 1 [1] idField :=
    .one_plain hkey (.delimited (.last (by decide) (by decide)))
  have hnumber : Fields 1 [2] ([0x10] ++ [0x81, 0x00]) :=
    @Fields.one_plain [0x81, 0x00] 0 ⟨2, .varint⟩ [0x10]
      ⟨.last (by decide) (by decide), by decide, by decide⟩
      (.varint (.more (by decide) (.last (by decide) (by decide))))
  have hinside : Fields 2 [1] ([0x0B] ++ ([0x10] ++ [0x81, 0x00]) ++ [0x0C]) :=
    .one_group ⟨.last (by decide) (by decide), by decide, by decide⟩ hnumber
      ⟨.last (by decide) (by decide), by decide, by decide⟩
  have hnovelty : Fields 3 [16] novelty :=
    .one_group ⟨.more (by decide) (.last (by decide) (by decide)), by decide, by decide⟩ hinside
      ⟨.more (by decide) (.last (by decide) (by decide)), by decide, by decide⟩
  have hpart : PartRecord.layout.Widened (maxDepth - 1) (idField ++ nameFields)
      (idField ++ novelty ++ nameFields) :=
    .intro hid (hnovelty.mono (by decide)) rfl
  have hlength : Varint.Spells 10 [0x92, 0x00] (idField ++ novelty ++ nameFields).length :=
    .more (by decide) (.last (by decide) (by decide))
  have hwidened : ListPartsResponse.Widened ([] ++ (olderReply ++ [])) ([] ++ (newerReply ++ [])) :=
    .inside (.nil : Fields 0 [] []) hkey (.last (by decide) (by decide)) hpart hlength
  have hsmall : newerReply.length ≤ sizeLimit := by decide +kernel
  exact ⟨hdecode, fun filter => (newer_peers_understood.1 hwidened hdecode).2 filter "" hsmall⟩

end Rpc

end OrderDesk
