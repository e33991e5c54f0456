import OrderDesk.Proofs.Wire.Field
import OrderDesk.Wire.Layout

/-!
# Rows of fields that are read back

A message is read field by field, so what a row of fields makes of a value is put together from what
each of them makes of it. A field that is left out because it holds the default makes nothing of a
value that has the default there.

## Main definitions

* `Layout.Takes`: a row of fields turns a value into another one

## Main results

* `Takes.append`, `Takes.flatMap`: rows behind one another
* `Takes.decode`: a whole message
* `takes_textAlways`, `takes_text`, `takes_double`, `takes_enum`, `takes_message`: one field of each
  kind
-/

namespace OrderDesk.Wire

variable {M N α : Type} {depth : Nat} {v w x : M} {bytes more : List UInt8}

/-- **The bits of a floating point number behind the wire**: a negative zero has lost its sign,
since a zero of either sign is left out. -/
def afterWire (bits : UInt64) : UInt64 :=
  if bits = 0x8000000000000000 then 0 else bits

namespace Layout

variable {layout : Layout M}

/-- **A row of fields turns a value into another one**: wherever it stands in a message, the reader
comes to its end with the other value. The bytes that are still to be read bound the steps. -/
def Takes (layout : Layout M) (depth : Nat) (v : M) (bytes : List UInt8) (w : M) : Prop :=
  ∀ ⦃after : Nat⦄ ⦃rest fuel : List UInt8⦄, after ≤ rest.length →
    (bytes ++ rest).length ≤ fuel.length →
      ∃ fuel' : List UInt8, rest.length ≤ fuel'.length ∧
        layout.readFields depth after fuel v (bytes ++ rest) =
          layout.readFields depth after fuel' w rest

/-! ## Rows -/

theorem Takes.nil : layout.Takes depth v [] v :=
  fun _ _ fuel _ hfuel => ⟨fuel, hfuel, rfl⟩

/-- **One row behind another.** -/
theorem Takes.append (h : layout.Takes depth v bytes w) (next : layout.Takes depth w more x) :
    layout.Takes depth v (bytes ++ more) x := by
  intro after rest fuel hafter hfuel
  rw [List.append_assoc] at hfuel ⊢
  have hmore : after ≤ (more ++ rest).length := by
    rw [List.length_append]
    exact Nat.le_add_left_of_le hafter
  obtain ⟨fuel₁, hfuel₁, hread₁⟩ := h hmore hfuel
  obtain ⟨fuel', hfuel', hread⟩ := next hafter hfuel₁
  exact ⟨fuel', hfuel', hread₁.trans hread⟩

/-- **One field**, which takes a byte at least. -/
theorem Takes.field (ne : bytes ≠ [])
    (h : ∀ rest, layout.readField depth v (bytes ++ rest) = .ok (w, rest)) :
    layout.Takes depth v bytes w := by
  intro after rest fuel hafter hfuel
  have hpos : 0 < bytes.length := List.length_pos_iff.mpr ne
  rw [List.length_append] at hfuel
  cases fuel with
  | nil =>
    rw [List.length_nil] at hfuel
    omega
  | cons step fuel =>
    rw [List.length_cons] at hfuel
    refine ⟨fuel, by omega, ?_⟩
    have hlt : after < (bytes ++ rest).length := by
      rw [List.length_append]
      omega
    rw [readFields, if_pos hlt, h rest]

/-- **A row of fields of one kind**, each of which puts something into the value. -/
theorem Takes.flatMap {field : α → List UInt8} {put : M → α → M} {as : List α}
    (h : ∀ a ∈ as, ∀ v, layout.Takes depth v (field a) (put v a)) :
    ∀ v, layout.Takes depth v (as.flatMap field) (as.foldl put v) := by
  induction as with
  | nil => exact fun v => .nil
  | cons a as ih =>
    intro v
    have hrest := ih (fun b hb => h b (List.mem_cons_of_mem _ hb)) (put v a)
    rw [List.flatMap_cons, List.foldl_cons]
    exact (h a (List.mem_cons_self ..) v).append hrest

/-- The row is all that is left of the message. -/
theorem Takes.readFields (h : layout.Takes depth v bytes w) (rest : List UInt8)
    {fuel : List UInt8} (hfuel : (bytes ++ rest).length ≤ fuel.length) :
    layout.readFields depth rest.length fuel v (bytes ++ rest) = .ok (w, rest) := by
  obtain ⟨fuel', -, hread⟩ := h (Nat.le_refl _) hfuel
  rw [hread]
  cases fuel' with
  | nil => rw [Layout.readFields, if_pos rfl]
  | cons step fuel' => rw [Layout.readFields, if_neg (Nat.lt_irrefl _), if_pos rfl]

/-- **A whole message is read back.** -/
theorem Takes.decode (h : layout.Takes maxDepth layout.empty bytes w) :
    layout.decode bytes = .ok w := by
  have hread := h.readFields [] (Nat.le_of_eq (congrArg List.length (List.append_nil bytes)))
  rw [List.append_nil, List.length_nil] at hread
  rw [Layout.decode, hread]
  rfl

/-- **A message with its length in front** is read back. -/
theorem Takes.readDelimited (h : layout.Takes depth v bytes w) (short : bytes.length < 2 ^ 64)
    (rest : List UInt8) :
    layout.readDelimited (depth + 1) v (Varint.encode bytes.length ++ bytes ++ rest) =
      .ok (w, rest) := by
  have hlength : Varint.read (Varint.encode bytes.length ++ (bytes ++ rest)) =
      .ok (bytes.length, bytes ++ rest) := Varint.read_encode short _
  have hle : ¬ (bytes ++ rest).length < bytes.length := by simp
  have hbehind : (bytes ++ rest).length - bytes.length = rest.length := by simp
  rw [List.append_assoc, Layout.readDelimited, if_neg (Nat.succ_ne_zero depth), hlength]
  simp only
  rw [if_neg hle, hbehind, Nat.add_sub_cancel]
  exact h.readFields rest (Nat.le_refl _)

/-! ## Fields -/

/-- A key leads to the slot of its tag. -/
theorem readField_of_slot {slot : Slot M} {tag : Nat} (known : layout.slot? tag = some slot)
    (pos : 0 < tag) (small : tag < 2 ^ 29) {content rest : List UInt8}
    (h : slot.read depth v (content ++ rest) = .ok (w, rest)) :
    layout.readField depth v (Key.encode ⟨tag, slot.kind⟩ ++ content ++ rest) = .ok (w, rest) := by
  have hkey : Key.read (Key.encode ⟨tag, slot.kind⟩ ++ (content ++ rest)) =
      .ok (⟨tag, slot.kind⟩, content ++ rest) := Key.read_encode pos small _
  rw [List.append_assoc, readField, hkey]
  simp only [known, if_true, h]
  rfl

section Fields

variable {tag : Nat} {name : String} (pos : 0 < tag) (small : tag < 2 ^ 29)
include pos small

/-- A field whose content is read by itself. -/
theorem takes_plain {kind : Kind} {content : List UInt8 → Except Fault (α × List UInt8)}
    {put : M → α → M} {a : α} (known : layout.slot? tag = some (Slot.plain name kind content put))
    (h : Reads content bytes a) (puts : put v a = w) :
    layout.Takes depth v (Key.encode ⟨tag, kind⟩ ++ bytes) w := by
  refine Takes.field (List.append_ne_nil_of_left_ne_nil (Key.encode_ne_nil _) _) fun rest => ?_
  refine readField_of_slot known pos small ?_
  simp only [Slot.plain, h rest, puts]

/-- **A text**, empty or not. -/
theorem takes_textAlways {put : M → String → M} {text : String}
    (known : layout.slot? tag = some (Slot.text name put)) (puts : put v text = w)
    (short : (Field.textAlways tag text).length < 2 ^ 64) :
    layout.Takes depth v (Field.textAlways tag text) w := by
  rw [Field.textAlways, Field.delimited, List.append_assoc] at short ⊢
  refine takes_plain pos small known (Content.reads_text ?_) puts
  simp only [List.length_append] at short
  omega

/-- **A text that may be left out.** -/
theorem takes_text {put : M → String → M} {text : String}
    (known : layout.slot? tag = some (Slot.text name put)) (default : put v "" = v)
    (puts : put v text = w) (short : (Field.text tag text).length < 2 ^ 64) :
    layout.Takes depth v (Field.text tag text) w := by
  rw [Field.text] at short ⊢
  split at short
  · rename_i hempty
    rw [if_pos hempty, ← puts, hempty, default]
    exact .nil
  · rename_i hempty
    rw [if_neg hempty]
    exact takes_textAlways pos small known puts short

/-- **A floating point number that may be left out.** -/
theorem takes_double {put : M → UInt64 → M} {bits : UInt64}
    (known : layout.slot? tag = some (Slot.double name put)) (default : put v 0 = v)
    (puts : put v (afterWire bits) = w) :
    layout.Takes depth v (Field.double tag bits) w := by
  rw [Field.double]
  by_cases hzero : bits = 0 ∨ bits = 0x8000000000000000
  · have hbits : afterWire bits = 0 := by
      rcases hzero with rfl | rfl <;> rfl
    rw [if_pos hzero, ← puts, hbits, default]
    exact .nil
  · have hbits : afterWire bits = bits := if_neg fun h => hzero (.inr h)
    rw [hbits] at puts
    rw [if_neg hzero]
    exact takes_plain pos small known (Content.reads_fixed64 bits) puts

/-- **A number of an enumeration that may be left out.** -/
theorem takes_enum {put : M → Int32 → M} {number : Int32}
    (known : layout.slot? tag = some (Slot.enum name put)) (default : put v 0 = v)
    (puts : put v number = w) :
    layout.Takes depth v (Field.enum tag number) w := by
  rw [Field.enum]
  split
  · rename_i hzero
    rw [← puts, hzero, default]
    exact .nil
  · exact takes_plain pos small known (Content.reads_enum number) puts

/-- **A message inside**, which is read onto what is there. -/
theorem takes_message {inner : Layout N} {get : M → N} {put : M → N → M} {n : N}
    (known : layout.slot? tag = some (Slot.message name inner get put))
    (h : inner.Takes depth (get v) bytes n) (puts : put v n = w)
    (short : (Field.delimited tag bytes).length < 2 ^ 64) :
    layout.Takes (depth + 1) v (Field.delimited tag bytes) w := by
  rw [Field.delimited, List.append_assoc] at short ⊢
  have hshort : bytes.length < 2 ^ 64 := by
    simp only [List.length_append] at short
    omega
  refine Takes.field (List.append_ne_nil_of_left_ne_nil (Key.encode_ne_nil _) _) fun rest => ?_
  refine readField_of_slot known pos small ?_
  simp only [Slot.message, h.readDelimited hshort rest, puts]

end Fields

end Layout

end OrderDesk.Wire
