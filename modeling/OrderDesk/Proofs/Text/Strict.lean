import OrderDesk.Proofs.Text.Utf8

/-!
# What the strict decoder accepts

The decoder accepts the bytes of texts and nothing else: no overlong form, no surrogate, nothing
above the last character and nothing cut off. So the bytes that it accepts are those of what it
decodes them to, and two texts whose bytes begin alike begin alike.

## Main results

* `encodeChar_cons`: where a character begins
* `eq_encode_of_decode?`, `eq_ofString_of_toString?`: only the bytes of a text are decoded to it
* `encode_inj`: a text is told by its bytes
* `cons_eq_of_encode`: the bytes of a text begin with those of its first character only
-/

namespace OrderDesk.Text.Utf8

variable {a b c d byte : UInt8} {read text : List Char} {bytes : List UInt8} {ch : Char} {v : Nat}

/-! ## One character -/

theorem toNat_ofNat (valid : v.isValidChar) : (Char.ofNat v).val.toNat = v := by
  rw [Char.ofNat, dif_pos valid]
  rfl

/-- What holds of the bytes one by one. -/
theorem forall_byte {P : UInt8 → Prop} (h : ∀ n < 256, P (UInt8.ofNat n)) (byte : UInt8) :
    P byte := by
  have hbyte := h byte.toNat byte.toNat_lt
  rwa [UInt8.ofNat_toNat] at hbyte

/-- **A continuation byte** carries its last six bits. -/
theorem of_isContinuation (h : isContinuation byte = true) :
    128 ≤ byte.toNat ∧ byte.toNat < 192 ∧ payload byte = byte.toNat - 128 := by
  have hall : ∀ byte, isContinuation byte = true →
      128 ≤ byte.toNat ∧ byte.toNat < 192 ∧ payload byte = byte.toNat - 128 :=
    forall_byte (by decide +kernel)
  exact hall byte h

/-- **The second byte of three** keeps out overlong forms and surrogates. -/
theorem of_isSecond_three (lead : 0xE0 ≤ a ∧ a ≤ 0xEF) (h : isSecond a b = true) :
    isContinuation b = true ∧ (a.toNat = 0xE0 → 0xA0 ≤ b.toNat) ∧
      (a.toNat = 0xED → b.toNat < 0xA0) := by
  have hall : ∀ n < 16, ∀ m < 256, isSecond (UInt8.ofNat (n + 0xE0)) (UInt8.ofNat m) = true →
      isContinuation (UInt8.ofNat m) = true ∧ (n + 0xE0 = 0xE0 → 0xA0 ≤ m) ∧
        (n + 0xE0 = 0xED → m < 0xA0) := by
    decide +kernel
  have hle : 0xE0 ≤ a.toNat := UInt8.le_iff_toNat_le.mp lead.1
  have hge : a.toNat ≤ 0xEF := UInt8.le_iff_toNat_le.mp lead.2
  have hbytes := hall (a.toNat - 0xE0) (by omega) b.toNat b.toNat_lt
  rw [Nat.sub_add_cancel hle, UInt8.ofNat_toNat, UInt8.ofNat_toNat] at hbytes
  exact hbytes h

/-- **The second byte of four** keeps out overlong forms and what lies above the last character. -/
theorem of_isSecond_four (lead : 0xF0 ≤ a ∧ a ≤ 0xF4) (h : isSecond a b = true) :
    isContinuation b = true ∧ (a.toNat = 0xF0 → 0x90 ≤ b.toNat) ∧
      (a.toNat = 0xF4 → b.toNat < 0x90) := by
  have hall : ∀ n < 5, ∀ m < 256, isSecond (UInt8.ofNat (n + 0xF0)) (UInt8.ofNat m) = true →
      isContinuation (UInt8.ofNat m) = true ∧ (n + 0xF0 = 0xF0 → 0x90 ≤ m) ∧
        (n + 0xF0 = 0xF4 → m < 0x90) := by
    decide +kernel
  have hle : 0xF0 ≤ a.toNat := UInt8.le_iff_toNat_le.mp lead.1
  have hge : a.toNat ≤ 0xF4 := UInt8.le_iff_toNat_le.mp lead.2
  have hbytes := hall (a.toNat - 0xF0) (by omega) b.toNat b.toNat_lt
  rw [Nat.sub_add_cancel hle, UInt8.ofNat_toNat, UInt8.ofNat_toNat] at hbytes
  exact hbytes h

/-- A byte is told by its number. -/
theorem ofNat_eq (byte : UInt8) {n : Nat} (h : n = byte.toNat) : UInt8.ofNat n = byte := by
  rw [h, UInt8.ofNat_toNat]

theorem encodeChar_one (h : a < 0x80) : String.utf8EncodeChar (Char.ofNat a.toNat) = [a] := by
  have hlt : a.toNat < 128 := UInt8.lt_iff_toNat_lt.mp h
  have hval : (Char.ofNat a.toNat).val.toNat = a.toNat :=
    toNat_ofNat (by rw [Nat.isValidChar]; omega)
  rw [encodeChar_ascii (by rw [Char.toNat, hval]; exact hlt), Char.toNat, hval, UInt8.ofNat_toNat]

theorem encodeChar_two (lead : 0xC2 ≤ a ∧ a ≤ 0xDF) (hb : isContinuation b = true) :
    String.utf8EncodeChar (Char.ofNat ((a.toNat - 0xC0) * 64 + payload b)) = [a, b] := by
  have hle : 0xC2 ≤ a.toNat := UInt8.le_iff_toNat_le.mp lead.1
  have hge : a.toNat ≤ 0xDF := UInt8.le_iff_toNat_le.mp lead.2
  obtain ⟨hb₁, hb₂, hpb⟩ := of_isContinuation hb
  rw [hpb, String.utf8EncodeChar, toNat_ofNat (by rw [Nat.isValidChar]; omega)]
  rw [if_neg (by omega), if_pos (by omega), ofNat_eq a (by omega), ofNat_eq b (by omega)]

theorem encodeChar_three (lead : 0xE0 ≤ a ∧ a ≤ 0xEF) (hb : isSecond a b = true)
    (hc : isContinuation c = true) :
    String.utf8EncodeChar (Char.ofNat ((a.toNat - 0xE0) * 4096 + payload b * 64 + payload c)) =
      [a, b, c] := by
  have hle : 0xE0 ≤ a.toNat := UInt8.le_iff_toNat_le.mp lead.1
  have hge : a.toNat ≤ 0xEF := UInt8.le_iff_toNat_le.mp lead.2
  obtain ⟨hb, hlong, hpair⟩ := of_isSecond_three lead hb
  obtain ⟨hb₁, hb₂, hpb⟩ := of_isContinuation hb
  obtain ⟨hc₁, hc₂, hpc⟩ := of_isContinuation hc
  rw [hpb, hpc, String.utf8EncodeChar, toNat_ofNat (by rw [Nat.isValidChar]; omega)]
  rw [if_neg (by omega), if_neg (by omega), if_pos (by omega), ofNat_eq a (by omega),
    ofNat_eq b (by omega), ofNat_eq c (by omega)]

theorem encodeChar_four (lead : 0xF0 ≤ a ∧ a ≤ 0xF4) (hb : isSecond a b = true)
    (hc : isContinuation c = true) (hd : isContinuation d = true) :
    String.utf8EncodeChar (Char.ofNat ((a.toNat - 0xF0) * 262144 + payload b * 4096 +
      payload c * 64 + payload d)) = [a, b, c, d] := by
  have hle : 0xF0 ≤ a.toNat := UInt8.le_iff_toNat_le.mp lead.1
  have hge : a.toNat ≤ 0xF4 := UInt8.le_iff_toNat_le.mp lead.2
  obtain ⟨hb, hlong, hlast⟩ := of_isSecond_four lead hb
  obtain ⟨hb₁, hb₂, hpb⟩ := of_isContinuation hb
  obtain ⟨hc₁, hc₂, hpc⟩ := of_isContinuation hc
  obtain ⟨hd₁, hd₂, hpd⟩ := of_isContinuation hd
  rw [hpb, hpc, hpd, String.utf8EncodeChar, toNat_ofNat (by rw [Nat.isValidChar]; omega)]
  rw [if_neg (by omega), if_neg (by omega), if_neg (by omega), ofNat_eq a (by omega),
    ofNat_eq b (by omega), ofNat_eq c (by omega), ofNat_eq d (by omega)]

/-- **The first byte of a character** continues none, and the others do. -/
theorem encodeChar_cons (ch : Char) :
    ∃ first others, String.utf8EncodeChar ch = first :: others ∧ isContinuation first = false ∧
      ∀ byte ∈ others, isContinuation byte = true := by
  have hvalid : ch.val.toNat < 0xD800 ∨ 0xDFFF < ch.val.toNat ∧ ch.val.toNat < 0x110000 := ch.valid
  have hlead : ∀ n < 256, n < 128 ∨ 192 ≤ n → isContinuation (UInt8.ofNat n) = false := by
    decide +kernel
  have hcont (n : Nat) : isContinuation (UInt8.ofNat (n % 64 + 128)) = true :=
    (continuation_ofNat (n % 64) (Nat.mod_lt _ (by decide))).1
  simp only [String.utf8EncodeChar]
  split
  · exact ⟨_, _, rfl, hlead _ (by omega) (by omega), List.forall_mem_nil _⟩
  have hone (n : Nat) : ∀ byte ∈ [UInt8.ofNat (n % 64 + 128)], isContinuation byte = true :=
    List.forall_mem_cons.mpr ⟨hcont n, List.forall_mem_nil _⟩
  split
  · exact ⟨_, _, rfl, hlead _ (by omega) (by omega), hone _⟩
  split
  · exact ⟨_, _, rfl, hlead _ (by omega) (by omega), List.forall_mem_cons.mpr ⟨hcont _, hone _⟩⟩
  · exact ⟨_, _, rfl, hlead _ (by omega) (by omega),
      List.forall_mem_cons.mpr ⟨hcont _, List.forall_mem_cons.mpr ⟨hcont _, hone _⟩⟩⟩

/-! ## Whole texts -/

/-- **What is decoded** is a text behind those characters that were read before, and the bytes are
those of the text. -/
theorem exists_text_of_decodeOnto {all : List Char} (h : decodeOnto read bytes = .ok all) :
    ∃ text, all = read.reverse ++ text ∧ bytes = encode text := by
  have hmore {read : List Char} {ch : Char} {front rest : List UInt8}
      (hchar : String.utf8EncodeChar ch = front)
      (ih : ∃ text, all = (ch :: read).reverse ++ text ∧ rest = encode text) :
      ∃ text, all = read.reverse ++ text ∧ front ++ rest = encode text := by
    obtain ⟨text, hall, hrest⟩ := ih
    refine ⟨ch :: text, ?_, ?_⟩
    · rw [hall, List.reverse_cons, List.append_assoc]
      rfl
    · rw [encode_cons, hchar, hrest]
  fun_induction decodeOnto read bytes with
  | case1 read =>
    cases h
    exact ⟨[], (List.append_nil _).symm, rfl⟩
  | case2 read a rest hone ih => exact hmore (encodeChar_one hone) (ih h)
  | case4 read a _ b rest hlead hb ih =>
    exact hmore (encodeChar_two (by simpa using hlead) hb) (ih h)
  | case7 read a _ b _ c rest hlead hbytes ih =>
    obtain ⟨hb, hc⟩ := Bool.and_eq_true_iff.mp hbytes
    exact hmore (encodeChar_three (by simpa using hlead) hb hc) (ih h)
  | case10 read a _ b _ c _ d rest hbytes ih =>
    simp only [Bool.and_eq_true, decide_eq_true_eq] at hbytes
    obtain ⟨⟨⟨hlead, hb⟩, hc⟩, hd⟩ := hbytes
    exact hmore (encodeChar_four hlead hb hc hd) (ih h)
  | _ => cases h

/-- **Only the bytes of a text** are decoded to it. -/
theorem eq_encode_of_decode? (h : decode? bytes = some text) : bytes = encode text := by
  unfold decode? at h
  cases hread : decodeOnto [] bytes with
  | error read =>
    rw [hread] at h
    cases h
  | ok all =>
    rw [hread] at h
    cases h
    obtain ⟨text', htext, hbytes⟩ := exists_text_of_decodeOnto hread
    rw [List.reverse_nil, List.nil_append] at htext
    exact htext ▸ hbytes

theorem eq_ofString_of_toString? {s : String} (h : toString? bytes = some s) :
    bytes = ofString s := by
  obtain ⟨text, hdecode, rfl⟩ := Option.map_eq_some_iff.mp h
  rw [ofString, String.toList_ofList]
  exact eq_encode_of_decode? hdecode

/-- **A text is told by its bytes.** -/
theorem encode_inj {text text' : List Char} (h : encode text = encode text') : text = text' := by
  have hdecode := congrArg decode? h
  rw [decode?_encode, decode?_encode] at hdecode
  exact Option.some.inj hdecode

/-- **The bytes of a text begin with a character** only if the text does. -/
theorem cons_eq_of_encode (h : encode text = String.utf8EncodeChar ch ++ bytes) :
    ∃ rest, text = ch :: rest ∧ bytes = encode rest := by
  have hread : decodeOnto [] (encode text) = .ok text := decodeOnto_encode [] text
  rw [h, decodeOnto_encodeChar] at hread
  obtain ⟨rest, htext, hbytes⟩ := exists_text_of_decodeOnto hread
  exact ⟨rest, htext, hbytes⟩

end OrderDesk.Text.Utf8
