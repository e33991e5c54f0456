import OrderDesk.Proofs.Json.Accepted.Cursor
import OrderDesk.Proofs.Json.Text
import OrderDesk.Proofs.Uuid.Reading

/-!
# Strings that have been read or passed over

Whatever the reader of strings accepts is a spelling of the string that it gives: the bytes between
the quotes are read one by one, or one escape at a time, and only the whole of them is decoded. That
the two agree rests on escapes that stand for whole characters: none of them completes a character
that bytes have begun.

## Main definitions

* `BodyBytes`: what stands between quotes, and the bytes that it stands for

## Main results

* `of_readEscape`, `of_readBytes`: what the reader has taken
* `BodyBytes.spelled`: bytes that stand for those of a text spell it
* `of_readText`, `of_skipText`: strings that have been read or passed over
-/

namespace OrderDesk.Json

open Text Text.Utf8 Cursor

variable {c c' : Cursor} {ch : Char} {byte : UInt8} {n : Nat}
  {bytes raw out more fuel read : List UInt8} {cs form : List Char}

/-! ## Escapes -/

theorem writes_of_hexValue? (h : hexValue? byte = some n) :
    ∃ d : Fin 16, d.val = n ∧ Hex.Writes (Char.ofNat byte.toNat) d := by
  obtain ⟨d, hd, rfl⟩ := Option.map_eq_some_iff.mp h
  exact ⟨d, rfl, Hex.writes_of_value? hd⟩

theorem FourDigits.ascii (digits : FourDigits cs n) : ∀ ch ∈ cs, ch.toNat < 128 := by
  obtain ⟨first, second, third, fourth⟩ := digits
  simp only [List.forall_mem_cons]
  exact ⟨first.ascii, second.ascii, third.ascii, fourth.ascii, by simp⟩

theorem FourDigits.lt (digits : FourDigits cs n) : n < 0x10000 := by
  obtain ⟨-, -, -, -⟩ := digits
  omega

/-- **Four digits** that have been read. -/
theorem of_readHexEscape (h : readHexEscape c = .ok (n, c')) :
    ∃ ds, FourDigits ds n ∧ c.rest = encode ds ++ c'.rest := by
  unfold readHexEscape at h
  split at h
  · rename_i x y z t rest hrest
    simp only at h
    split at h
    · rename_i m hdigits
      cases h
      unfold fourDigits? at hdigits
      split at hdigits
      · rename_i hx hy hz ht
        cases hdigits
        obtain ⟨dx, rfl, first⟩ := writes_of_hexValue? hx
        obtain ⟨dy, rfl, second⟩ := writes_of_hexValue? hy
        obtain ⟨dz, rfl, third⟩ := writes_of_hexValue? hz
        obtain ⟨dt, rfl, fourth⟩ := writes_of_hexValue? ht
        have hdigits := FourDigits.mk first second third fourth
        refine ⟨_, hdigits, ?_⟩
        have hbytes : encode (latin [x, y, z, t]) = [x, y, z, t] := by
          refine encode_latin fun byte hbyte => ?_
          have hmem : Char.ofNat byte.toNat ∈ latin [x, y, z, t] := List.mem_map_of_mem hbyte
          rw [← toNat_ofNat_byte]
          exact hdigits.ascii _ hmem
        rw [rest_advance (rest_advance (rest_advance (rest_advance hrest))), hrest]
        exact (congrArg (· ++ rest) hbytes).symm
      · cases hdigits
    · cases h
  · cases h

theorem of_pairMark (h : pairMark c byte = .ok c') : c.rest = byte :: c'.rest := by
  unfold pairMark at h
  split at h
  · cases h
  · rename_i other hpeek
    split at h
    · rename_i heq
      cases h
      exact beq_iff_eq.mp heq ▸ rest_of_peek? hpeek
    · cases h

theorem toNat_ofNat_char {v : Nat} (valid : v.isValidChar) : (Char.ofNat v).toNat = v :=
  Utf8.toNat_ofNat valid

/-- The number of a pair of surrogates. -/
theorem CharForm.of_pair {hs ls : List Char} {m : Nat} (high : FourDigits hs n)
    (low : FourDigits ls m) (leading : 0xD800 ≤ n ∧ n ≤ 0xDBFF)
    (trailing : 0xDC00 ≤ m ∧ m ≤ 0xDFFF) :
    CharForm (Char.ofNat (0x10000 + (n - 0xD800) * 0x400 + (m - 0xDC00)))
      ('\\' :: 'u' :: (hs ++ '\\' :: 'u' :: ls)) := by
  have hval : (Char.ofNat (0x10000 + (n - 0xD800) * 0x400 + (m - 0xDC00))).toNat =
      0x10000 + (n - 0xD800) * 0x400 + (m - 0xDC00) :=
    toNat_ofNat_char (by rw [Nat.isValidChar]; omega)
  have hhigh : 0xD800 + (0x10000 + (n - 0xD800) * 0x400 + (m - 0xDC00) - 0x10000) / 0x400 = n := by
    omega
  have hlow : 0xDC00 + (0x10000 + (n - 0xD800) * 0x400 + (m - 0xDC00) - 0x10000) % 0x400 = m := by
    omega
  refine .pair ?_ ?_ ?_
  · rw [hval]
    omega
  · rw [hval, hhigh]
    exact high
  · rw [hval, hlow]
    exact low

/-- **A character by its number**, or by the numbers of a pair of surrogates. -/
theorem of_readCodePoint (h : readCodePoint c = .ok (bytes, c')) :
    ∃ ch form, bytes = String.utf8EncodeChar ch ∧ CharForm ch ('\\' :: 'u' :: form) ∧
      c.rest = encode form ++ c'.rest := by
  obtain ⟨⟨n, c₁⟩, hfirst, h⟩ := exists_of_bind h
  obtain ⟨hs, high, hrest⟩ := of_readHexEscape hfirst
  have hn := high.lt
  simp only at h
  split at h
  · cases h
  · split at h
    · cases h
      have hval : (Char.ofNat n).toNat = n := toNat_ofNat_char (by rw [Nat.isValidChar]; omega)
      exact ⟨Char.ofNat n, hs, rfl, .number (hval.symm ▸ high), hrest⟩
    · obtain ⟨c₂, hback, h⟩ := exists_of_bind h
      obtain ⟨c₃, hu, h⟩ := exists_of_bind h
      obtain ⟨⟨m, c₄⟩, hsecond, h⟩ := exists_of_bind h
      obtain ⟨ls, low, hrest₃⟩ := of_readHexEscape hsecond
      simp only at h
      split at h
      · cases h
      · obtain ⟨rfl, rfl⟩ := Prod.mk.inj (Except.ok.inj h)
        refine ⟨_, hs ++ '\\' :: 'u' :: ls, rfl, .of_pair high low (by omega) (by omega), ?_⟩
        rw [hrest, of_pairMark hback, of_pairMark hu, hrest₃, encode_append, List.append_assoc]
        rfl

/-- The short escapes, by their bytes. -/
theorem mem_of_shortEscape? {b : UInt8} (h : shortEscape? byte = some b) :
    (Char.ofNat byte.toNat, Char.ofNat b.toNat) ∈ shortEscapes ∧ byte.toNat < 128 ∧
      b.toNat < 128 := by
  have hall : ∀ byte, (shortEscape? byte).all (fun b =>
      decide ((Char.ofNat byte.toNat, Char.ofNat b.toNat) ∈ shortEscapes ∧ byte.toNat < 128 ∧
        b.toNat < 128)) = true :=
    forall_byte (by decide +kernel)
  have hbyte := hall byte
  rw [h] at hbyte
  exact of_decide_eq_true hbyte

theorem encode_ofNat_byte (h : byte.toNat < 128) : encode [Char.ofNat byte.toNat] = [byte] :=
  have ascii : ∀ other ∈ [byte], other.toNat < 128 := by simpa using h
  encode_latin ascii

/-- **An escape** that has been read stands for a whole character. -/
theorem of_readEscape (h : readEscape c = .ok (bytes, c')) :
    ∃ ch form, bytes = String.utf8EncodeChar ch ∧ CharForm ch ('\\' :: form) ∧
      c.rest = encode form ++ c'.rest := by
  unfold readEscape at h
  split at h
  · cases h
  · rename_i byte hpeek
    split at h
    · rename_i hu
      obtain ⟨ch, form, hbytes, hform, hrest⟩ := of_readCodePoint h
      refine ⟨ch, 'u' :: form, hbytes, hform, ?_⟩
      rw [rest_of_peek? hpeek, beq_iff_eq.mp hu, hrest]
      rfl
    · split at h
      · rename_i b hshort
        cases h
        obtain ⟨hmem, hbyte, hb⟩ := mem_of_shortEscape? hshort
        refine ⟨Char.ofNat b.toNat, [Char.ofNat byte.toNat], ?_, .short hmem, ?_⟩
        · exact ((List.append_nil _).symm.trans (encode_ofNat_byte hb)).symm
        · rw [rest_of_peek? hpeek, encode_ofNat_byte hbyte]
          rfl
      · cases h

/-! ## Strings that have been read -/

/-- **What stands between quotes**, and the bytes that it stands for: bytes for themselves, and
escapes for those of a character. -/
inductive BodyBytes : List UInt8 → List UInt8 → Prop
  | nil : BodyBytes [] []
  | byte {b : UInt8} {raw out : List UInt8} (plain : PlainByte b) (tail : BodyBytes raw out) :
    BodyBytes (b :: raw) (b :: out)
  | escape {ch : Char} {form : List Char} {raw out : List UInt8}
    (escapes : CharForm ch ('\\' :: form)) (tail : BodyBytes raw out) :
    BodyBytes (encode ('\\' :: form) ++ raw) (String.utf8EncodeChar ch ++ out)

/-- **What the reader has taken** up to the closing quote. -/
theorem of_readBytes (h : readBytes read fuel c = .ok (bytes, c')) :
    ∃ raw out, BodyBytes raw out ∧ bytes = read.reverse ++ out ∧
      c.rest = raw ++ Ascii.quote :: c'.rest := by
  induction fuel generalizing read c with
  | nil => cases h
  | cons step fuel ih =>
    rw [readBytes] at h
    split at h
    · cases h
    · rename_i byte rest hrest
      have hadvance : c.advance.rest = rest := rest_advance hrest
      split at h
      · rename_i hquote
        cases h
        refine ⟨[], [], .nil, (List.append_nil _).symm, ?_⟩
        rw [hrest, hadvance, beq_iff_eq.mp hquote]
        rfl
      · rename_i hquote
        split at h
        · rename_i hback
          split at h
          · cases h
          · rename_i bytes' c₁ hescape
            obtain ⟨ch, form, rfl, hform, hbehind⟩ := of_readEscape hescape
            obtain ⟨raw, out, hbody, hbytes, hraw⟩ := ih h
            refine ⟨_, _, .escape hform hbody, ?_, ?_⟩
            · rw [hbytes, List.reverse_append, List.reverse_reverse, List.append_assoc]
            · rw [hrest, beq_iff_eq.mp hback, ← hadvance, hbehind, hraw, List.append_assoc]
              rfl
        · rename_i hback
          split at h
          · cases h
          · rename_i hprintable
            obtain ⟨raw, out, hbody, hbytes, hraw⟩ := ih h
            have hplain : PlainByte byte :=
              ⟨by simpa using hquote, by simpa using hback, hprintable⟩
            refine ⟨_, _, .byte hplain hbody, ?_, ?_⟩
            · rw [hbytes, List.reverse_cons, List.append_assoc]
              rfl
            · rw [hrest, ← hadvance, hraw]
              rfl

/-- **Bytes that continue a character** stand for themselves: an escape stands for a whole one. -/
theorem BodyBytes.continued (h : BodyBytes raw (bytes ++ out))
    (continues : ∀ byte ∈ bytes, isContinuation byte = true) :
    ∃ more, raw = bytes ++ more ∧ BodyBytes more out := by
  induction bytes generalizing raw with
  | nil => exact ⟨raw, rfl, h⟩
  | cons byte bytes ih =>
    obtain ⟨hbyte, hbytes⟩ := List.forall_mem_cons.mp continues
    generalize hall : byte :: bytes ++ out = all at h
    cases h with
    | nil => cases hall
    | byte plain tail =>
      cases hall
      obtain ⟨more, rfl, hmore⟩ := ih tail hbytes
      exact ⟨more, rfl, hmore⟩
    | @escape ch form raw out' escapes tail =>
      obtain ⟨first, others, hchar, hfirst, -⟩ := encodeChar_cons ch
      rw [hchar] at hall
      obtain ⟨rfl, -⟩ := List.cons.inj hall
      rw [hbyte] at hfirst
      cases hfirst

/-- **A byte that stands for itself** begins a character that does. -/
theorem Plain.of_byte {others : List UInt8} (plain : PlainByte byte)
    (hchar : String.utf8EncodeChar ch = byte :: others) : Plain ch := by
  by_cases hascii : ch.toNat < 128
  · rw [encodeChar_ascii hascii] at hchar
    obtain ⟨rfl, -⟩ := List.cons.inj hchar
    have hnat : (UInt8.ofNat ch.toNat).toNat = ch.toNat := by
      simp
      omega
    refine ⟨?_, ?_, ?_⟩
    · have hprintable := UInt8.le_iff_toNat_le.mp (UInt8.not_lt.mp plain.printable)
      rw [hnat] at hprintable
      exact hprintable
    · rintro rfl
      exact plain.ne_quote rfl
    · rintro rfl
      exact plain.ne_backslash rfl
  · refine ⟨by omega, ?_, ?_⟩
    · rintro rfl
      exact hascii (by decide)
    · rintro rfl
      exact hascii (by decide)

/-- **Bytes that stand for those of a text** spell it. -/
theorem BodyBytes.spelled {text : List Char} (h : BodyBytes raw (encode text)) :
    ∃ body, Spelled text body ∧ raw = encode body := by
  induction text generalizing raw with
  | nil =>
    generalize hall : encode [] = all at h
    cases h with
    | nil => exact ⟨[], .nil, rfl⟩
    | byte plain tail => cases hall
    | @escape ch form raw out escapes tail =>
      obtain ⟨first, others, hchar, -⟩ := encodeChar_cons ch
      rw [hchar] at hall
      cases hall
  | cons ch text ih =>
    generalize hall : encode (ch :: text) = all at h
    cases h with
    | nil =>
      obtain ⟨first, others, hchar, -⟩ := encodeChar_cons ch
      rw [encode_cons, hchar] at hall
      cases hall
    | @byte b raw out plain tail =>
      obtain ⟨first, others, hchar, -, hothers⟩ := encodeChar_cons ch
      rw [encode_cons, hchar] at hall
      obtain ⟨rfl, rfl⟩ := List.cons.inj hall
      obtain ⟨more, rfl, hmore⟩ := tail.continued hothers
      obtain ⟨body, hbody, rfl⟩ := ih hmore
      refine ⟨[ch] ++ body, .cons (.plain (.of_byte plain hchar)) hbody, ?_⟩
      rw [List.singleton_append, encode_cons, hchar]
      rfl
    | @escape ch' form raw out escapes tail =>
      obtain ⟨rest, htext, rfl⟩ := cons_eq_of_encode hall
      obtain ⟨rfl, rfl⟩ := List.cons.inj htext
      obtain ⟨body, hbody, rfl⟩ := ih tail
      exact ⟨'\\' :: form ++ body, .cons escapes hbody, (encode_append _ _).symm⟩

/-- **A string that has been read** is a spelling of it. -/
theorem of_readText {s : String} (quote : c.rest = Ascii.quote :: c.advance.rest)
    (h : readText c.advance = .ok (s, c')) :
    ∃ cs, Quotes s cs ∧ c.rest = encode cs ++ c'.rest := by
  unfold readText at h
  split at h
  · cases h
  · rename_i bytes behind hread
    split at h
    · rename_i text htext
      cases h
      obtain ⟨raw, out, hbody, hbytes, hrest⟩ := of_readBytes hread
      rw [List.reverse_nil, List.nil_append] at hbytes
      obtain ⟨body, hspelled, rfl⟩ :=
        BodyBytes.spelled (eq_ofString_of_toString? htext ▸ hbytes ▸ hbody)
      refine ⟨'"' :: (body ++ ['"']), .mk hspelled, ?_⟩
      rw [quote, hrest, encode_cons_ascii (by decide), encode_append, List.cons_append,
        List.append_assoc]
      rfl
    · cases h

/-! ## Strings that have been passed over -/

theorem FourDigits.latin_encode (digits : FourDigits cs n) : latin (encode cs) = cs :=
  Json.latin_encode digits.ascii

/-- **An escape that has been passed over.** -/
theorem of_skipEscape (h : skipEscape c = .ok c') :
    ∃ bytes, c.rest = bytes ++ c'.rest ∧
      ∀ cs, Unquoted cs → Unquoted ('\\' :: (latin bytes ++ cs)) := by
  unfold skipEscape at h
  split at h
  · cases h
  · rename_i byte hpeek
    split at h
    · rename_i hu
      split at h
      · rename_i n c₁ hread
        cases h
        obtain ⟨ds, digits, hrest⟩ := of_readHexEscape hread
        refine ⟨Ascii.lowerU :: encode ds, ?_, fun cs hcs => ?_⟩
        · rw [rest_of_peek? hpeek, beq_iff_eq.mp hu, hrest]
          rfl
        · rw [latin_cons, digits.latin_encode]
          exact .number digits hcs
      · cases h
    · split at h
      · rename_i hshort
        cases h
        obtain ⟨b, hb⟩ := Option.isSome_iff_exists.mp hshort
        exact ⟨[byte], rest_of_peek? hpeek, fun cs hcs => .short (mem_of_shortEscape? hb).1 hcs⟩
      · cases h

theorem PlainByte.plain (plain : PlainByte byte) : Plain (Char.ofNat byte.toNat) := by
  have hnat := toNat_ofNat_byte byte
  refine ⟨?_, fun h => plain.ne_quote ?_, fun h => plain.ne_backslash ?_⟩
  · rw [hnat]
    exact UInt8.le_iff_toNat_le.mp (UInt8.not_lt.mp plain.printable)
  · rw [h] at hnat
    exact UInt8.toNat_inj.mp hnat.symm
  · rw [h] at hnat
    exact UInt8.toNat_inj.mp hnat.symm

/-- **What has been passed over** between quotes, byte by byte. -/
theorem of_skipBytes (h : skipBytes fuel c = .ok c') :
    ∃ raw, Unquoted (latin raw) ∧ c.rest = raw ++ Ascii.quote :: c'.rest := by
  induction fuel generalizing c with
  | nil => cases h
  | cons step fuel ih =>
    rw [skipBytes] at h
    split at h
    · cases h
    · rename_i byte rest hrest
      have hadvance : c.advance.rest = rest := rest_advance hrest
      split at h
      · rename_i hquote
        cases h
        refine ⟨[], .nil, ?_⟩
        rw [hrest, hadvance, beq_iff_eq.mp hquote]
        rfl
      · rename_i hquote
        split at h
        · rename_i hback
          split at h
          · cases h
          · rename_i c₁ hescape
            obtain ⟨bytes, hbehind, hunquoted⟩ := of_skipEscape hescape
            obtain ⟨raw, hraw, hrest₁⟩ := ih h
            refine ⟨Ascii.backslash :: (bytes ++ raw), ?_, ?_⟩
            · rw [latin_cons, latin_append]
              exact hunquoted _ hraw
            · rw [hrest, beq_iff_eq.mp hback, ← hadvance, hbehind, hrest₁, List.cons_append,
                List.append_assoc]
        · rename_i hback
          split at h
          · cases h
          · rename_i hprintable
            obtain ⟨raw, hraw, hrest₁⟩ := ih h
            have hplain : PlainByte byte :=
              ⟨by simpa using hquote, by simpa using hback, hprintable⟩
            refine ⟨byte :: raw, latin_cons byte raw ▸ .plain hplain.plain hraw, ?_⟩
            rw [hrest, ← hadvance, hrest₁, List.cons_append]

/-- **A string that has been passed over.** -/
theorem of_skipText (quote : c.rest = Ascii.quote :: c.advance.rest)
    (h : skipText c.advance = .ok c') :
    ∃ raw, StringText (latin raw) ∧ c.rest = raw ++ c'.rest := by
  obtain ⟨raw, hraw, hrest⟩ := of_skipBytes h
  refine ⟨Ascii.quote :: (raw ++ [Ascii.quote]), ?_, ?_⟩
  · rw [latin_cons, latin_append]
    exact .mk hraw
  · rw [quote, hrest, List.cons_append, List.append_assoc]
    rfl

end OrderDesk.Json
