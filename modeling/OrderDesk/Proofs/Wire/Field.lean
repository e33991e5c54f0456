import Mathlib.Data.UInt
import OrderDesk.Proofs.Text.Utf8
import OrderDesk.Wire.Field

/-!
# Contents that are read back

What is written of a number, of a word or of a text is read back as it was, and the reader stops
just behind it. A length is a number too, so contents of less than `2 ^ 64` bytes can be delimited.

## Main definitions

* `Reads`: a reader takes some bytes for a value

## Main results

* `Varint.read_encode`: a number is read back
* `Key.read_encode`: the key of a field is read back
* `Content.reads_text`, `Content.reads_fixed64`, `Content.reads_enum`: the contents of fields
-/

namespace OrderDesk.Wire

/-- **A reader takes some bytes for a value**, whatever follows them. -/
def Reads {α : Type} (read : List UInt8 → Except Fault (α × List UInt8)) (bytes : List UInt8)
    (a : α) : Prop :=
  ∀ rest, read (bytes ++ rest) = .ok (a, rest)

/-! ## Numbers -/

namespace Varint

theorem encode_of_lt {n : Nat} (h : n < 128) : encode n = [UInt8.ofNat n] := by
  rw [encode, if_pos h]

theorem encode_of_le {n : Nat} (h : 128 ≤ n) :
    encode n = UInt8.ofNat (n % 128 + 128) :: encode (n / 128) := by
  rw [encode, if_neg (Nat.not_lt.mpr h)]

theorem encode_ne_nil (n : Nat) : encode n ≠ [] := by
  rw [encode]
  split <;> simp

/-- A number is read back within some places, the last of which has room for one bit only. -/
theorem readWithin_encode (places : Nat) :
    ∀ {n : Nat}, n < 2 * 128 ^ places → Reads (readWithin (places + 1)) (encode n) n := by
  induction places with
  | zero =>
    intro n h rest
    have hbyte : (UInt8.ofNat n).toNat = n := by
      rw [UInt8.toNat_ofNat']
      omega
    have hsmall : UInt8.ofNat n < 0x80 := by
      rw [UInt8.lt_iff_toNat_lt, hbyte]
      exact Nat.lt_trans h (by decide)
    have hone : ¬ (2 ≤ UInt8.ofNat n) := by
      rw [UInt8.le_iff_toNat_le, hbyte]
      exact Nat.not_le.mpr h
    rw [encode_of_lt (by omega), List.singleton_append, readWithin, if_pos hsmall,
      if_neg (fun h => hone h.2), hbyte]
  | succ places ih =>
    intro n h rest
    rw [Nat.pow_succ] at h
    rcases Nat.lt_or_ge n 128 with hlt | hge
    · have hbyte : (UInt8.ofNat n).toNat = n := by
        rw [UInt8.toNat_ofNat']
        omega
      have hsmall : UInt8.ofNat n < 0x80 := by
        rw [UInt8.lt_iff_toNat_lt, hbyte]
        exact hlt
      rw [encode_of_lt hlt, List.singleton_append, readWithin, if_pos hsmall,
        if_neg (fun h => Nat.succ_ne_zero _ h.1), hbyte]
    · have hbyte : (UInt8.ofNat (n % 128 + 128)).toNat = n % 128 + 128 := by
        rw [UInt8.toNat_ofNat']
        omega
      have hlarge : ¬ UInt8.ofNat (n % 128 + 128) < 0x80 := by
        rw [UInt8.lt_iff_toNat_lt, hbyte]
        exact Nat.not_lt.mpr (Nat.le_add_left 128 _)
      have hrest : readWithin (places + 1) (encode (n / 128) ++ rest) = .ok (n / 128, rest) :=
        ih (by omega) rest
      rw [encode_of_le hge, List.cons_append, readWithin, if_neg hlarge, hrest]
      simp only [hbyte]
      rw [Nat.add_sub_cancel, Nat.mod_add_div]

/-- **A number is read back.** -/
theorem read_encode {n : Nat} (h : n < 2 ^ 64) : Reads read (encode n) n :=
  readWithin_encode 9 h

end Varint

/-! ## Keys -/

/-- **A key is read back**, if it has a tag and fits in 32 bits. -/
theorem Key.read_encode {key : Key} (pos : 0 < key.tag) (small : key.tag < 2 ^ 29) :
    Reads Key.read key.encode key := by
  intro rest
  obtain ⟨tag, kind⟩ := key
  have hkind : kind.number < 8 := kind.number_lt
  have hmod : (tag * 8 + kind.number) % 8 = kind.number := by omega
  have hdiv : (tag * 8 + kind.number) / 8 = tag := by omega
  have hread : Varint.read (Varint.encode (tag * 8 + kind.number) ++ rest) =
      .ok (tag * 8 + kind.number, rest) := Varint.read_encode (by simp at small; omega) rest
  simp only [encode, read, hread]
  rw [if_neg (by simp at small; omega), hmod, hdiv, kind.ofNumber?_number]
  simp only
  rw [if_neg (Nat.pos_iff_ne_zero.mp pos)]

theorem Key.encode_ne_nil (key : Key) : key.encode ≠ [] :=
  Varint.encode_ne_nil _

/-! ## Words -/

/-- One byte more below a word of at most seven. -/
theorem toNat_pushByte {word : UInt64} (h : word.toNat < 2 ^ 56) (byte : UInt8) :
    (word <<< 8 ||| byte.toUInt64).toNat = word.toNat * 256 + byte.toNat := by
  have hbyte : byte.toNat < 2 ^ 8 := byte.toNat_lt
  have hshift : (word <<< 8).toNat = word.toNat * 256 := by
    rw [UInt64.toNat_shiftLeft, Nat.shiftLeft_eq]
    simp only [UInt64.toNat_ofNat, Nat.reduceMod, Nat.reducePow] at h ⊢
    omega
  have hor : 256 * word.toNat + byte.toNat = 256 * word.toNat ||| byte.toNat :=
    Nat.two_pow_add_eq_or_of_lt hbyte word.toNat
  rw [UInt64.toNat_or, hshift, UInt8.toNat_toUInt64, Nat.mul_comm, ← hor]

/-- The bytes from one place on are the word without what is below it. -/
theorem toNat_ofWordBytes (word : UInt64) {n : Nat} : ∀ {i : Nat}, i + n = 8 →
    (ofWordBytes ((List.range' i n).map fun i =>
      (word >>> UInt64.ofNat (8 * i)).toUInt8)).toNat = word.toNat / 256 ^ i := by
  have hword : word.toNat < 2 ^ 64 := word.toNat_lt
  induction n with
  | zero =>
    intro i h
    obtain rfl : i = 8 := h
    exact (Nat.div_eq_of_lt hword).symm
  | succ n ih =>
    intro i h
    have hrest := ih (i := i + 1) (by omega)
    have hbyte : ((word >>> UInt64.ofNat (8 * i)).toUInt8).toNat = word.toNat / 256 ^ i % 256 := by
      have hpow : 2 ^ (8 * i) = 256 ^ i := by rw [Nat.pow_mul]
      rw [UInt64.toNat_toUInt8, UInt64.toNat_shiftRight, Nat.shiftRight_eq_div_pow,
        UInt64.toNat_ofNat', Nat.mod_eq_of_lt (b := 2 ^ 64) (by omega),
        Nat.mod_eq_of_lt (b := 64) (by omega), hpow]
    have hdiv : word.toNat / 256 ^ (i + 1) = word.toNat / 256 ^ i / 256 := by
      rw [Nat.pow_succ, Nat.div_div_eq_div_mul]
    have hsmall : word.toNat / 256 ^ i / 256 < 2 ^ 56 := by
      have := Nat.div_le_self word.toNat (256 ^ i)
      omega
    rw [List.range'_succ, List.map_cons, ofWordBytes, List.foldr_cons, ← ofWordBytes,
      toNat_pushByte (by rw [hrest, hdiv]; exact hsmall), hrest, hdiv, hbyte]
    omega

/-- **A word is read back** from its bytes. -/
theorem ofWordBytes_wordBytes (word : UInt64) : ofWordBytes (wordBytes word) = word := by
  apply UInt64.toNat_inj.mp
  rw [wordBytes, List.range_eq_range', toNat_ofWordBytes word (Nat.zero_add 8), Nat.pow_zero,
    Nat.div_one]

@[simp] theorem length_wordBytes (word : UInt64) : (wordBytes word).length = 8 := by
  simp [wordBytes]

/-! ## Contents -/

namespace Content

theorem reads_take (bytes : List UInt8) : Reads (take bytes.length) bytes bytes := by
  intro rest
  rw [take, if_neg (by simp), List.take_left, List.drop_left]

/-- **Bytes with their length in front** are read back. -/
theorem reads_delimited {bytes : List UInt8} (h : bytes.length < 2 ^ 64) :
    Reads delimited (Varint.encode bytes.length ++ bytes) bytes := by
  intro rest
  have hlength : Varint.read (Varint.encode bytes.length ++ (bytes ++ rest)) =
      .ok (bytes.length, bytes ++ rest) := Varint.read_encode h _
  rw [List.append_assoc, delimited, hlength]
  exact reads_take bytes rest

/-- **A text is read back.** -/
theorem reads_text {text : String} (h : (Text.Utf8.ofString text).length < 2 ^ 64) :
    Reads Content.text (Varint.encode (Text.Utf8.ofString text).length ++ Text.Utf8.ofString text)
      text := by
  intro rest
  have htext : Text.Utf8.toString? (Text.Utf8.ofString text) = some text := by
    rw [Text.Utf8.ofString, Text.Utf8.toString?_encode, String.ofList_toList]
  rw [Content.text, reads_delimited h rest]
  simp only [htext]

/-- **A word of 64 bits is read back.** -/
theorem reads_fixed64 (word : UInt64) : Reads fixed64 (wordBytes word) word := by
  intro rest
  have htake : take 8 (wordBytes word ++ rest) = .ok (wordBytes word, rest) := by
    have htake := reads_take (wordBytes word) rest
    rwa [length_wordBytes] at htake
  rw [fixed64, htake]
  simp only [ofWordBytes_wordBytes]

/-- The low 32 bits of a number of 64 bits are the number that was extended to them. -/
theorem ofNat_toNat_toInt64 (number : Int32) :
    Int32.ofNat number.toInt64.toUInt64.toNat = number := by
  apply Int32.toBitVec_inj.mp
  have hbits : (Int32.ofNat number.toInt64.toUInt64.toNat).toBitVec =
      BitVec.setWidth 32 (BitVec.signExtend 64 number.toBitVec) := by
    rw [← Int32.toBitVec_toInt64, ← BitVec.ofNat_toNat]
    rfl
  rw [hbits]
  ext i hi
  rw [BitVec.getElem_setWidth, BitVec.getLsbD_signExtend]
  simp only [hi, if_true, BitVec.getLsbD_eq_getElem]
  simp only [Bool.and_eq_right_iff_imp, decide_eq_true_eq]
  omega

/-- **A number of an enumeration is read back**, whatever its sign. -/
theorem reads_enum (number : Int32) :
    Reads enum (Varint.encode number.toInt64.toUInt64.toNat) number := by
  intro rest
  rw [enum, Varint.read_encode number.toInt64.toUInt64.toNat_lt rest]
  simp only [ofNat_toNat_toInt64]

end Content

end OrderDesk.Wire
