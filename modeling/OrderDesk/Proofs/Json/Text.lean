import OrderDesk.Proofs.Json.Cursor

/-!
# Strings that are read and passed over

The reader of strings reads every spelling of a string, and what is passed over may be any string.
Both go on one character, or one escape, at a time.

## Main results

* `readHexEscape_of`, `readCodePoint_number`, `readCodePoint_pair`: numbers of characters
* `reads_spelled`, `readText_of`: every spelling of a string is read
* `skips_unquoted`, `skipText_of`: every string is passed over
-/

namespace OrderDesk.Json

open Text Text.Utf8 Cursor

variable {c : Cursor} {ch : Char} {rest : List UInt8}

/-! ## Escapes -/

theorem hexValue?_of {d : Fin 16} (h : Hex.Writes ch d) :
    hexValue? (UInt8.ofNat ch.toNat) = some d.val := by
  have hnat : (UInt8.ofNat ch.toNat).toNat = ch.toNat := by
    have hascii := h.ascii
    simp
    omega
  rw [hexValue?, hnat, Char.ofNat_toNat, Hex.value?_of_writes h]
  rfl

/-- **Four digits** are read as the number that they write. -/
theorem readHexEscape_of {ds : List Char} {n : Nat} (digits : FourDigits ds n)
    (h : c.rest = encode ds ++ rest) :
    ∃ c', readHexEscape c = .ok (n, c') ∧ c'.rest = rest := by
  obtain ⟨first, second, third, fourth⟩ := digits
  rw [encode_cons_ascii first.ascii, encode_cons_ascii second.ascii, encode_cons_ascii third.ascii,
    encode_cons_ascii fourth.ascii, encode_nil] at h
  refine ⟨c.advance.advance.advance.advance, ?_,
    rest_advance (rest_advance (rest_advance (rest_advance h)))⟩
  simp only [readHexEscape, h, List.cons_append, fourDigits?, hexValue?_of first,
    hexValue?_of second, hexValue?_of third, hexValue?_of fourth]

theorem toNat_valid (ch : Char) : ch.toNat < 0xD800 ∨ 0xDFFF < ch.toNat ∧ ch.toNat < 0x110000 :=
  ch.valid

theorem codePointBytes_toNat (ch : Char) :
    codePointBytes ch.toNat = String.utf8EncodeChar ch := by
  rw [codePointBytes, Char.ofNat_toNat]

/-- **A character by its number.** -/
theorem readCodePoint_number {ds : List Char} (digits : FourDigits ds ch.toNat)
    (h : c.rest = encode ds ++ rest) :
    ∃ c', readCodePoint c = .ok (String.utf8EncodeChar ch, c') ∧ c'.rest = rest := by
  obtain ⟨c', hread, hrest⟩ := readHexEscape_of digits h
  have hvalid := toNat_valid ch
  refine ⟨c', ?_, hrest⟩
  rw [readCodePoint, hread]
  simp only [bind, Except.bind, codePointBytes_toNat]
  rw [if_neg (by omega), if_pos (by omega)]

theorem pairMark_of {byte : UInt8} (h : c.rest = byte :: rest) :
    pairMark c byte = .ok c.advance := by
  simp [pairMark, peek?_of h]

/-- **A character by a pair of surrogates.** -/
theorem readCodePoint_pair {hs ls : List Char} {n m : Nat} (high : FourDigits hs n)
    (low : FourDigits ls m) (leading : 0xD800 ≤ n ∧ n ≤ 0xDBFF)
    (trailing : 0xDC00 ≤ m ∧ m ≤ 0xDFFF)
    (sum : 0x10000 + (n - 0xD800) * 0x400 + (m - 0xDC00) = ch.toNat)
    (h : c.rest = encode (hs ++ '\\' :: 'u' :: ls) ++ rest) :
    ∃ c', readCodePoint c = .ok (String.utf8EncodeChar ch, c') ∧ c'.rest = rest := by
  rw [encode_append, List.append_assoc] at h
  obtain ⟨c₁, hhigh, hrest₁⟩ := readHexEscape_of high h
  have hrest₂ : c₁.advance.rest = Ascii.lowerU :: (encode ls ++ rest) := rest_advance hrest₁
  obtain ⟨c', hlow, hrest⟩ := readHexEscape_of low (rest_advance hrest₂)
  have hbackslash : pairMark c₁ Ascii.backslash = .ok c₁.advance := pairMark_of hrest₁
  refine ⟨c', ?_, hrest⟩
  rw [readCodePoint, hhigh]
  simp only [bind, Except.bind, hbackslash, pairMark_of hrest₂, hlow, sum, codePointBytes_toNat]
  rw [if_neg (by omega), if_neg (by omega), if_neg (by omega)]

/-- What the short escapes stand for, as bytes. -/
theorem shortEscape?_of_mem : ∀ p ∈ shortEscapes, p.1.toNat < 128 ∧ p.2.toNat < 128 ∧
    UInt8.ofNat p.1.toNat ≠ Ascii.lowerU ∧
    shortEscape? (UInt8.ofNat p.1.toNat) = some (UInt8.ofNat p.2.toNat) := by
  decide

theorem readEscape_short {letter : Char} (mem : (letter, ch) ∈ shortEscapes)
    (h : c.rest = encode [letter] ++ rest) :
    ∃ c', readEscape c = .ok (String.utf8EncodeChar ch, c') ∧ c'.rest = rest := by
  obtain ⟨hascii, hascii', hne, hshort⟩ := shortEscape?_of_mem _ mem
  rw [encode_cons_ascii hascii, encode_nil, List.singleton_append] at h
  refine ⟨c.advance, ?_, rest_advance h⟩
  simp [readEscape, peek?_of h, hne, hshort, encodeChar_ascii hascii']

theorem readEscape_u (h : c.rest = Ascii.lowerU :: rest) :
    readEscape c = readCodePoint c.advance := by
  simp [readEscape, peek?_of h]

/-! ## Strings that are read -/

/-- Behind an escape there is less to read. -/
theorem length_behind {byte : UInt8} {bytes : List UInt8} {c' : Cursor}
    (h : c.rest = byte :: (bytes ++ rest)) (hrest : c'.rest = rest) :
    c'.rest.length < c.rest.length := by
  rw [h, hrest, List.length_cons, List.length_append]
  omega

/-- A byte that stands for itself between quotes. -/
structure PlainByte (byte : UInt8) : Prop where
  ne_quote : byte ≠ Ascii.quote
  ne_backslash : byte ≠ Ascii.backslash
  printable : ¬ byte < 0x20

theorem Plain.bytes (plain : Plain ch) : ∀ byte ∈ String.utf8EncodeChar ch, PlainByte byte := by
  intro byte hbyte
  by_cases hascii : ch.toNat < 128
  · rw [encodeChar_ascii hascii] at hbyte
    obtain rfl := List.mem_singleton.mp hbyte
    have hnat : (UInt8.ofNat ch.toNat).toNat = ch.toNat := by
      simp
      omega
    refine ⟨fun h => plain.ne_quote ?_, fun h => plain.ne_backslash ?_, fun h => ?_⟩
    · rw [h] at hnat
      exact Char.toNat_inj.mp hnat.symm
    · rw [h] at hnat
      exact Char.toNat_inj.mp hnat.symm
    · rw [UInt8.lt_iff_toNat_lt, hnat] at h
      exact absurd plain.printable (Nat.not_le_of_lt h)
  · -- all bytes of it lie above the ASCII characters
    have hle := le_of_mem_encodeChar (Nat.le_of_not_lt hascii) hbyte
    refine ⟨?_, ?_, fun h => ?_⟩
    · rintro rfl
      exact absurd hle (by decide)
    · rintro rfl
      exact absurd hle (by decide)
    · rw [UInt8.lt_iff_toNat_lt] at h
      exact absurd hle (Nat.not_le_of_lt (Nat.lt_trans h (by decide)))

theorem reads_byte {byte : UInt8} (plain : PlainByte byte) (h : c.rest = byte :: rest)
    (read : List UInt8) : ComesTo (readBytes read) c (readBytes (byte :: read)) rest := by
  refine .step (length_advance h) (fun _ _ => ?_) (.here (rest_advance h))
  simp [readBytes, h, plain.ne_quote, plain.ne_backslash, plain.printable]

theorem reads_bytes {bytes : List UInt8} (plain : ∀ byte ∈ bytes, PlainByte byte)
    (h : c.rest = bytes ++ rest) (read : List UInt8) :
    ComesTo (readBytes read) c (readBytes (bytes.reverse ++ read)) rest := by
  induction bytes generalizing c read with
  | nil => exact .here h
  | cons byte bytes ih =>
    obtain ⟨hbyte, hbytes⟩ := List.forall_mem_cons.mp plain
    rw [List.reverse_cons, List.append_assoc]
    exact (reads_byte hbyte h read).trans fun _ hrest => ih hbytes hrest _

theorem reads_escape {bytes escape : List UInt8} {c' : Cursor}
    (h : c.rest = Ascii.backslash :: (escape ++ rest))
    (hread : readEscape c.advance = .ok (bytes, c')) (hrest : c'.rest = rest)
    (read : List UInt8) : ComesTo (readBytes read) c (readBytes (bytes.reverse ++ read)) rest := by
  refine .step (length_behind h hrest) (fun _ _ => ?_) (.here hrest)
  have hne : (Ascii.backslash == Ascii.quote) = false := rfl
  simp [readBytes, h, hne, hread]

/-- **One character in any of its forms.** -/
theorem reads_form {form : List Char} (head : CharForm ch form) (h : c.rest = encode form ++ rest)
    (read : List UInt8) :
    ComesTo (readBytes read) c (readBytes ((String.utf8EncodeChar ch).reverse ++ read)) rest := by
  cases head with
  | plain hplain =>
    rw [encode_cons, encode_nil, List.append_nil] at h
    exact reads_bytes hplain.bytes h read
  | @short letter mem =>
    have hback : c.rest = Ascii.backslash :: (encode [letter] ++ rest) := h
    obtain ⟨c', hread, hrest⟩ := readEscape_short mem (rest_advance hback)
    exact reads_escape hback hread hrest read
  | @number ds digits =>
    have hback : c.rest = Ascii.backslash :: (encode ('u' :: ds) ++ rest) := h
    have hu : c.advance.rest = Ascii.lowerU :: (encode ds ++ rest) := rest_advance hback
    obtain ⟨c', hread, hrest⟩ := readCodePoint_number digits (rest_advance hu)
    exact reads_escape hback ((readEscape_u hu).trans hread) hrest read
  | @pair hs ls above high low =>
    have hback : c.rest =
        Ascii.backslash :: (encode ('u' :: (hs ++ '\\' :: 'u' :: ls)) ++ rest) := h
    have hu : c.advance.rest = Ascii.lowerU :: (encode (hs ++ '\\' :: 'u' :: ls) ++ rest) :=
      rest_advance hback
    have hvalid := toNat_valid ch
    have hsum : 0x10000 + (0xD800 + (ch.toNat - 0x10000) / 0x400 - 0xD800) * 0x400 +
        (0xDC00 + (ch.toNat - 0x10000) % 0x400 - 0xDC00) = ch.toNat := by omega
    obtain ⟨c', hread, hrest⟩ := readCodePoint_pair high low (by omega) (by omega) hsum
      (rest_advance hu)
    exact reads_escape hback ((readEscape_u hu).trans hread) hrest read

/-- **A spelled text** is read character by character. -/
theorem reads_spelled {text body : List Char} (spelled : Spelled text body)
    (h : c.rest = encode body ++ rest) (read : List UInt8) :
    ComesTo (readBytes read) c (readBytes ((encode text).reverse ++ read)) rest := by
  induction spelled generalizing c read with
  | nil => exact .here h
  | cons head tail ih =>
    rw [encode_append, List.append_assoc] at h
    rw [encode_cons, List.reverse_append, List.append_assoc]
    exact (reads_form head h read).trans fun _ hrest => ih hrest _

/-- **Every spelling of a string is read** as that string. -/
theorem readText_of {s : String} {text : List Char} (quotes : Quotes s text)
    (h : c.rest = encode text ++ rest) :
    c.peek? = some Ascii.quote ∧ ∃ c', readText c.advance = .ok (s, c') ∧ c'.rest = rest := by
  obtain @⟨body, spelled⟩ := quotes
  have hquote : c.rest = Ascii.quote :: (encode (body ++ ['"']) ++ rest) := h
  have hbody : c.advance.rest = encode body ++ Ascii.quote :: rest := by
    rw [rest_advance hquote, encode_append, List.append_assoc]
    rfl
  obtain ⟨fuel, c', hrest, hfuel, hread⟩ := reads_spelled spelled hbody [] (Nat.le_refl _)
  obtain ⟨byte, fuel, rfl, -⟩ := exists_step (length_advance hrest) hfuel
  refine ⟨peek?_of hquote, c'.advance, ?_, rest_advance hrest⟩
  rw [readText, hread]
  simp [readBytes, hrest, toString?_encode]

/-! ## Strings that are passed over -/

theorem skips_byte {byte : UInt8} (plain : PlainByte byte) (h : c.rest = byte :: rest) :
    ComesTo skipBytes c skipBytes rest := by
  refine .step (length_advance h) (fun _ _ => ?_) (.here (rest_advance h))
  simp [skipBytes, h, plain.ne_quote, plain.ne_backslash, plain.printable]

theorem skips_bytes {bytes : List UInt8} (plain : ∀ byte ∈ bytes, PlainByte byte)
    (h : c.rest = bytes ++ rest) : ComesTo skipBytes c skipBytes rest := by
  induction bytes generalizing c with
  | nil => exact .here h
  | cons byte bytes ih =>
    obtain ⟨hbyte, hbytes⟩ := List.forall_mem_cons.mp plain
    exact (skips_byte hbyte h).trans fun _ hrest => ih hbytes hrest

theorem skips_escape {escape : List UInt8} {c' : Cursor}
    (h : c.rest = Ascii.backslash :: (escape ++ rest)) (hskip : skipEscape c.advance = .ok c')
    (hrest : c'.rest = rest) : ComesTo skipBytes c skipBytes rest := by
  refine .step (length_behind h hrest) (fun _ _ => ?_) (.here hrest)
  have hne : (Ascii.backslash == Ascii.quote) = false := rfl
  simp [skipBytes, h, hne, hskip]

/-- **What stands between quotes** is passed over item by item. -/
theorem skips_unquoted {body : List Char} (unquoted : Unquoted body)
    (h : c.rest = encode body ++ rest) : ComesTo skipBytes c skipBytes rest := by
  induction unquoted generalizing c with
  | nil => exact .here h
  | plain hplain tail ih =>
    rw [encode_cons, List.append_assoc] at h
    exact (skips_bytes hplain.bytes h).trans fun _ hrest => ih hrest
  | @short letter ch cs mem tail ih =>
    obtain ⟨hascii, -, hne, hshort⟩ := shortEscape?_of_mem _ mem
    have hback : c.rest = Ascii.backslash :: (encode [letter] ++ (encode cs ++ rest)) := by
      rw [h, ← List.append_assoc, ← encode_append]
      rfl
    have hletter := rest_advance hback
    rw [encode_cons_ascii hascii, encode_nil, List.singleton_append] at hletter
    have hskip : skipEscape c.advance = .ok c.advance.advance := by
      simp [skipEscape, peek?_of hletter, hne, hshort]
    exact (skips_escape hback hskip (rest_advance hletter)).trans fun _ hrest => ih hrest
  | @number ds cs n digits tail ih =>
    have hback : c.rest = Ascii.backslash :: (encode ('u' :: ds) ++ (encode cs ++ rest)) := by
      rw [h, ← List.append_assoc, ← encode_append]
      rfl
    have hu : c.advance.rest = Ascii.lowerU :: (encode ds ++ (encode cs ++ rest)) :=
      rest_advance hback
    obtain ⟨c', hread, hrest⟩ := readHexEscape_of digits (rest_advance hu)
    have hskip : skipEscape c.advance = .ok c' := by
      simp [skipEscape, peek?_of hu, hread]
    exact (skips_escape hback hskip hrest).trans fun _ hrest => ih hrest

/-- **Every string is passed over.** -/
theorem skipText_of {text : List Char} (string : StringText text)
    (h : c.rest = encode text ++ rest) :
    c.peek? = some Ascii.quote ∧ ∃ c', skipText c.advance = .ok c' ∧ c'.rest = rest := by
  obtain @⟨body, unquoted⟩ := string
  have hquote : c.rest = Ascii.quote :: (encode (body ++ ['"']) ++ rest) := h
  have hbody : c.advance.rest = encode body ++ Ascii.quote :: rest := by
    rw [rest_advance hquote, encode_append, List.append_assoc]
    rfl
  obtain ⟨fuel, c', hrest, hfuel, hskip⟩ := skips_unquoted unquoted hbody (Nat.le_refl _)
  obtain ⟨byte, fuel, rfl, -⟩ := exists_step (length_advance hrest) hfuel
  refine ⟨peek?_of hquote, c'.advance, ?_, rest_advance hrest⟩
  rw [skipText, hskip]
  simp [skipBytes, hrest]

end OrderDesk.Json
