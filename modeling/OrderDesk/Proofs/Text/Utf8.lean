import OrderDesk.Text.Utf8

/-!
# What UTF-8 bytes decode to

The strict decoder reads back whatever the encoder writes. It does so one character at a time, by
the number of bytes that the character takes.

## Main results

* `encode_append`, `encode_cons_ascii`: the bytes of a longer text
* `decodeOnto_encodeChar`: one character is read back
* `decode?_encode`, `toString?_encode`: a text is read back
* `le_of_mem_encodeChar`: a character that is no ASCII character has no ASCII bytes
-/

namespace OrderDesk.Text.Utf8

/-! ## Longer texts -/

@[simp] theorem encode_nil : encode [] = [] := rfl

@[simp] theorem encode_append (xs ys : List Char) : encode (xs ++ ys) = encode xs ++ encode ys :=
  List.flatMap_append

theorem encode_cons (c : Char) (cs : List Char) :
    encode (c :: cs) = String.utf8EncodeChar c ++ encode cs :=
  List.flatMap_cons

/-- An ASCII character is its own byte. -/
theorem encodeChar_ascii {c : Char} (h : c.toNat < 128) :
    String.utf8EncodeChar c = [UInt8.ofNat c.toNat] := by
  have hle : c.val.toNat ≤ 127 := Nat.le_of_lt_succ h
  simp only [String.utf8EncodeChar, if_pos hle]
  rfl

theorem encode_cons_ascii {c : Char} (h : c.toNat < 128) (cs : List Char) :
    encode (c :: cs) = UInt8.ofNat c.toNat :: encode cs := by
  rw [encode_cons, encodeChar_ascii h]
  rfl

/-! ## One character -/

/-- A continuation byte carries six bits. -/
theorem continuation_ofNat : ∀ n < 64, isContinuation (UInt8.ofNat (n + 128)) = true ∧
    payload (UInt8.ofNat (n + 128)) = n := by decide +kernel

/-- The first byte of two. -/
theorem leads_two : ∀ n < 32, 2 ≤ n → ¬ UInt8.ofNat (n + 192) < 0x80 ∧
    (0xC2 ≤ UInt8.ofNat (n + 192) && UInt8.ofNat (n + 192) ≤ 0xDF) = true ∧
    (UInt8.ofNat (n + 192)).toNat - 0xC0 = n := by decide +kernel

/-- The first byte of three. -/
theorem leads_three : ∀ n < 16, ¬ UInt8.ofNat (n + 224) < 0x80 ∧
    (0xC2 ≤ UInt8.ofNat (n + 224) && UInt8.ofNat (n + 224) ≤ 0xDF) = false ∧
    (0xE0 ≤ UInt8.ofNat (n + 224) && UInt8.ofNat (n + 224) ≤ 0xEF) = true ∧
    (UInt8.ofNat (n + 224)).toNat - 0xE0 = n := by decide +kernel

/-- The first byte of four. -/
theorem leads_four : ∀ n < 5, ¬ UInt8.ofNat (n + 240) < 0x80 ∧
    (0xC2 ≤ UInt8.ofNat (n + 240) && UInt8.ofNat (n + 240) ≤ 0xDF) = false ∧
    (0xE0 ≤ UInt8.ofNat (n + 240) && UInt8.ofNat (n + 240) ≤ 0xEF) = false ∧
    (0xF0 ≤ UInt8.ofNat (n + 240) && UInt8.ofNat (n + 240) ≤ 0xF4) = true ∧
    (UInt8.ofNat (n + 240)).toNat - 0xF0 = n := by decide +kernel

/-- The second byte of three: no overlong form, and no surrogate. -/
theorem second_three : ∀ a < 16, ∀ b < 64, (a = 0 → 32 ≤ b) → (a = 13 → b < 32) →
    isSecond (UInt8.ofNat (a + 224)) (UInt8.ofNat (b + 128)) = true := by decide +kernel

/-- The second byte of four: no overlong form, and nothing above the last character. -/
theorem second_four : ∀ a < 5, ∀ b < 64, (a = 0 → 16 ≤ b) → (a = 4 → b < 16) →
    isSecond (UInt8.ofNat (a + 240)) (UInt8.ofNat (b + 128)) = true := by decide +kernel

/-- **One character is read back**, whatever follows it. -/
theorem decodeOnto_encodeChar (read : List Char) (c : Char) (rest : List UInt8) :
    decodeOnto read (String.utf8EncodeChar c ++ rest) = decodeOnto (c :: read) rest := by
  have hvalid : c.val.toNat < 0xD800 ∨ 0xDFFF < c.val.toNat ∧ c.val.toNat < 0x110000 := c.valid
  have hc : Char.ofNat c.val.toNat = c := Char.ofNat_toNat c
  simp only [String.utf8EncodeChar]
  generalize c.val.toNat = v at hvalid hc ⊢
  split
  · have hlt : UInt8.ofNat v < 0x80 := UInt8.lt_iff_toNat_lt.mpr (by simp; omega)
    have hnat : (UInt8.ofNat v).toNat = v := by simp; omega
    rw [List.singleton_append, decodeOnto.eq_def read]
    simp only [if_pos hlt, hnat, hc]
  split
  · obtain ⟨hlead, hrange, hbits⟩ := leads_two (v / 64 % 32) (by omega) (by omega)
    obtain ⟨hcont, hpayload⟩ := continuation_ofNat (v % 64) (by omega)
    have hv : v / 64 % 32 * 64 + v % 64 = v := by omega
    rw [decodeOnto.eq_def read]
    simp only [List.cons_append, List.nil_append, if_neg hlead, if_pos hrange, if_pos hcont, hbits,
      hpayload, hv, hc]
  split
  · obtain ⟨hlead, hnot, hrange, hbits⟩ := leads_three (v / 4096 % 16) (by omega)
    have hsecond := second_three (v / 4096 % 16) (by omega) (v / 64 % 64) (by omega) (by omega)
      (by omega)
    obtain ⟨-, hpayload⟩ := continuation_ofNat (v / 64 % 64) (by omega)
    obtain ⟨hcont, hpayload'⟩ := continuation_ofNat (v % 64) (by omega)
    have hv : v / 4096 % 16 * 4096 + v / 64 % 64 * 64 + v % 64 = v := by omega
    rw [decodeOnto.eq_def read]
    simp only [List.cons_append, List.nil_append, if_neg hlead, hnot, hrange, hsecond, hcont, hbits,
      hpayload, hpayload', hv, hc, Bool.and_self, if_true, Bool.false_eq_true, if_false]
  · obtain ⟨hlead, hnot, hnot', hrange, hbits⟩ := leads_four (v / 262144 % 8) (by omega)
    have hsecond := second_four (v / 262144 % 8) (by omega) (v / 4096 % 64) (by omega) (by omega)
      (by omega)
    obtain ⟨-, hpayload⟩ := continuation_ofNat (v / 4096 % 64) (by omega)
    obtain ⟨hcont', hpayload'⟩ := continuation_ofNat (v / 64 % 64) (by omega)
    obtain ⟨hcont, hpayload''⟩ := continuation_ofNat (v % 64) (by omega)
    have hv : v / 262144 % 8 * 262144 + v / 4096 % 64 * 4096 + v / 64 % 64 * 64 + v % 64 = v := by
      omega
    rw [decodeOnto.eq_def read]
    simp only [List.cons_append, List.nil_append, if_neg hlead, hnot, hnot', hrange, hsecond,
      hcont, hcont', hbits, hpayload, hpayload', hpayload'', hv, hc, Bool.and_self, if_true,
      Bool.false_eq_true, if_false]

/-! ## Whole texts -/

theorem decodeOnto_encode (read text : List Char) :
    decodeOnto read (encode text) = .ok (read.reverse ++ text) := by
  induction text generalizing read with
  | nil => simp [decodeOnto]
  | cons c text ih =>
    rw [encode_cons, decodeOnto_encodeChar, ih]
    simp

/-- **A text is read back.** -/
theorem decode?_encode (text : List Char) : decode? (encode text) = some text := by
  rw [decode?, decodeOnto_encode]
  rfl

theorem toString?_encode (text : List Char) :
    toString? (encode text) = some (String.ofList text) := by
  rw [toString?, decode?_encode]
  rfl

/-- **A character that is no ASCII character** has no ASCII bytes. -/
theorem le_of_mem_encodeChar {c : Char} (h : 128 ≤ c.toNat) {byte : UInt8}
    (mem : byte ∈ String.utf8EncodeChar c) : 128 ≤ byte.toNat := by
  have hle : ¬ c.val.toNat ≤ 127 := Nat.not_le_of_lt h
  have hvalid : c.val.toNat < 0xD800 ∨ 0xDFFF < c.val.toNat ∧ c.val.toNat < 0x110000 := c.valid
  simp only [String.utf8EncodeChar, if_neg hle] at mem
  split at mem
  · simp only [List.mem_cons, List.not_mem_nil, or_false] at mem
    rcases mem with rfl | rfl <;> simp <;> omega
  split at mem
  · simp only [List.mem_cons, List.not_mem_nil, or_false] at mem
    rcases mem with rfl | rfl | rfl <;> simp <;> omega
  · simp only [List.mem_cons, List.not_mem_nil, or_false] at mem
    rcases mem with rfl | rfl | rfl | rfl <;> simp <;> omega

end OrderDesk.Text.Utf8
