import Mathlib.Data.List.Induction
import OrderDesk.Proofs.Json.Accepted.Cursor
import OrderDesk.Proofs.Json.Number

/-!
# Numbers that have been read or passed over

What is read as an integer of 64 bits is its plain decimal: a number with a point or an exponent is
none, nor is a negative zero, nor one that does not fit. What is passed over may be any number.

## Main results

* `toDigits_of_whole`: digits without zeros in front are told by their value
* `of_readInt64`: integers that have been read
* `of_skipNumber`: numbers that have been passed over
-/

namespace OrderDesk.Json

open Text Text.Utf8 Cursor

variable {c c' : Cursor} {byte : UInt8} {bytes : List UInt8} {cs : List Char} {ch : Char}
  {negative : Bool} {significand : Nat} {exponent : Int} {number : Number}

/-! ## Digits -/

theorem isDigit_ofNat (h : Ascii.isDigit byte = true) :
    (Char.ofNat byte.toNat).isDigit = true ∧ byte.toNat < 128 ∧
      Ascii.digitValue byte = (Char.ofNat byte.toNat).toNat - '0'.toNat := by
  have hall : ∀ byte, Ascii.isDigit byte = true →
      (Char.ofNat byte.toNat).isDigit = true ∧ byte.toNat < 128 :=
    forall_byte (by decide +kernel)
  obtain ⟨hdigit, hascii⟩ := hall byte h
  refine ⟨hdigit, hascii, ?_⟩
  rw [Ascii.digitValue, toNat_ofNat_byte]
  rfl

/-- **The digits at the head** of what is to be read, if there are any. -/
theorem digits_latin (ne : bytes.takeWhile Ascii.isDigit ≠ []) :
    Digits (latin (bytes.takeWhile Ascii.isDigit)) where
  ne_nil := fun h => ne (List.map_eq_nil_iff.mp h)
  isDigit := by
    intro ch hch
    obtain ⟨byte, hbyte, rfl⟩ := List.mem_map.mp hch
    exact (isDigit_ofNat (List.mem_takeWhile_imp hbyte)).1

theorem takeWhile_of_peek? (h : c.peek? = some byte) (digit : Ascii.isDigit byte = true) :
    c.rest.takeWhile Ascii.isDigit = byte :: c.advance.rest.takeWhile Ascii.isDigit := by
  rw [rest_of_peek? h, List.takeWhile_cons_of_pos digit]

theorem digits_of_peek? (h : c.peek? = some byte) (digit : Ascii.isDigit byte = true) :
    Digits (latin (c.rest.takeWhile Ascii.isDigit)) :=
  digits_latin (by rw [takeWhile_of_peek? h digit]; exact List.cons_ne_nil _ _)

theorem rest_advanceBy_takeWhile (c : Cursor) (p : UInt8 → Bool) :
    c.rest = c.rest.takeWhile p ++ (c.advanceBy (c.rest.takeWhile p).length).rest :=
  (List.prefix_iff_eq_append.mp (List.takeWhile_prefix p)).symm

/-- The digits at the head are ASCII bytes. -/
theorem encode_digits (bytes : List UInt8) :
    encode (latin (bytes.takeWhile Ascii.isDigit)) = bytes.takeWhile Ascii.isDigit :=
  encode_latin fun _ hbyte => (isDigit_ofNat (List.mem_takeWhile_imp hbyte)).2.1

/-- **The digits of a whole number**: a zero in front stands alone. -/
theorem wholeText_of_peek? (h : c.peek? = some byte) (digit : Ascii.isDigit byte = true)
    (lone : ¬ (byte = Ascii.zero ∧ 1 < (c.rest.takeWhile Ascii.isDigit).length)) :
    WholeText (latin (c.rest.takeWhile Ascii.isDigit)) := by
  have hdigits := digits_of_peek? h digit
  rw [takeWhile_of_peek? h digit] at lone hdigits ⊢
  by_cases hzero : byte = Ascii.zero
  · have hmore : c.advance.rest.takeWhile Ascii.isDigit = [] := by
      refine List.eq_nil_of_length_eq_zero (Nat.eq_zero_of_not_pos fun hpos => lone ⟨hzero, ?_⟩)
      exact Nat.succ_lt_succ hpos
    rw [hzero, hmore]
    exact .zero
  · refine .digits hdigits fun h => hzero ?_
    rw [latin_cons, List.head?_cons] at h
    have hnat := toNat_ofNat_byte byte
    rw [Option.some.inj h] at hnat
    exact UInt8.toNat_inj.mp hnat.symm

/-! ## Plain decimals -/

/-- The value of digits. -/
theorem foldl_digitValue (digits : Digits cs) :
    ((encode cs).map Ascii.digitValue).foldl (fun n d => n * 10 + d) 0 =
      Nat.ofDigitChars 10 cs 0 := by
  rw [map_digitValue digits.isDigit, List.foldl_map, Nat.ofDigitChars]
  simp only [Nat.mul_comm]

theorem digitChar_of_isDigit (h : ch.isDigit = true) :
    Nat.digitChar (ch.toNat - '0'.toNat) = ch ∧ ch.toNat - '0'.toNat < 10 := by
  have hall : ∀ n < 58, 48 ≤ n → Nat.digitChar (n - 48) = Char.ofNat n := by decide
  obtain ⟨hle, hge⟩ : 48 ≤ ch.toNat ∧ ch.toNat ≤ 57 := by
    simpa [Char.isDigit, UInt32.le_iff_toNat_le] using h
  have hchar := hall ch.toNat (by omega) hle
  rw [Char.ofNat_toNat] at hchar
  have hzero : '0'.toNat = 48 := rfl
  exact ⟨hchar, by omega⟩

/-- **Digits without zeros in front** are told by their value. -/
theorem toDigits_of_whole (whole : WholeText cs) :
    Nat.toDigits 10 (Nat.ofDigitChars 10 cs 0) = cs := by
  cases whole with
  | zero => decide
  | digits digits head =>
    obtain ⟨ne, isDigit⟩ := digits
    induction cs using List.reverseRecOn with
    | nil => exact absurd rfl ne
    | append_singleton cs ch ih =>
      obtain ⟨hchar, hlt⟩ := digitChar_of_isDigit (isDigit ch (by simp))
      rw [Nat.ofDigitChars_append, Nat.ofDigitChars_cons, Nat.ofDigitChars_nil]
      by_cases hnil : cs = []
      · subst hnil
        rw [Nat.ofDigitChars_nil, Nat.mul_zero, Nat.zero_add, Nat.toDigits_of_lt_base hlt, hchar]
        rfl
      · have hhead : cs.head? ≠ some '0' := by
          obtain ⟨first, others, rfl⟩ := List.exists_cons_of_ne_nil hnil
          exact head
        have hcs := ih hhead hnil fun ch hch => isDigit ch (List.mem_append_left _ hch)
        have hpos : 0 < Nat.ofDigitChars 10 cs 0 := by
          refine Nat.pos_of_ne_zero fun hzero => hhead ?_
          rw [← hcs, hzero, Nat.toDigits_zero]
          rfl
        rw [Nat.toDigits_of_base_le (by decide) (by omega), Nat.mul_add_div (by decide),
          Nat.div_eq_of_lt hlt, Nat.add_zero, hcs, Nat.mul_add_mod, Nat.mod_eq_of_lt hlt, hchar]

/-- **Digits that have all been gathered** are within the limit. -/
theorem gather_eq {limit n m : Nat} {ds : List Nat} (h : gather limit n ds = (m, []))
    (le : n ≤ limit) : m = ds.foldl (fun n d => n * 10 + d) n ∧ m ≤ limit := by
  induction ds generalizing n with
  | nil =>
    cases h
    exact ⟨rfl, le⟩
  | cons d ds ih =>
    rw [gather] at h
    split at h
    · cases h
    · rename_i hle
      exact ih h (Nat.not_lt.mp hle)

/-! ## Floats -/

/-- A number with a point or an exponent, or one that does not fit, is a float. -/
theorem float_of_finish (h : finish negative significand exponent c = .ok (number, c')) :
    ∃ x, number = .float x := by
  unfold finish at h
  split at h
  · cases h
    exact ⟨_, rfl⟩
  · cases h

theorem float_of_readExponent
    (h : readExponent negative significand exponent c = .ok (number, c')) :
    ∃ x, number = .float x := by
  unfold readExponent at h
  simp only at h
  split at h
  · cases h
  · split at h
    · cases h
    · split at h
      · exact float_of_finish h
      · split at h
        · cases h
        · cases h
          exact ⟨_, rfl⟩

theorem float_of_readScaled (h : readScaled negative significand exponent c = .ok (number, c')) :
    ∃ x, number = .float x := by
  unfold readScaled at h
  split at h
  · split at h
    · exact float_of_readExponent h
    · exact float_of_finish h
  · exact float_of_finish h

theorem float_of_readFraction
    (h : readFraction negative significand exponent c = .ok (number, c')) :
    ∃ x, number = .float x := by
  unfold readFraction at h
  simp only at h
  split at h
  · split at h <;> cases h
  · exact float_of_readScaled h

/-! ## Integers that have been read -/

/-- **What is read without a float** is digits alone, all of which have been gathered. -/
theorem digits_of_readUnsigned (h : readUnsigned negative c = .ok (number, c'))
    (noFloat : ∀ x, number ≠ .float x) :
    ∃ byte n, c.peek? = some byte ∧ Ascii.isDigit byte = true ∧
      ¬ (byte = Ascii.zero ∧ 1 < (digitRun c).length) ∧
      gather largestSignificand 0 (digitRun c) = (n, []) ∧ number = integer negative n ∧
      c' = c.advanceBy (digitRun c).length := by
  have absurdly {P : Prop} (hfloat : ∃ x, number = .float x) : P := by
    obtain ⟨x, hx⟩ := hfloat
    exact absurd hx (noFloat x)
  unfold readUnsigned at h
  split at h
  · cases h
  · rename_i byte hpeek
    split at h
    · cases h
    · rename_i hdigit
      simp only at h
      split at h
      · cases h
      · rename_i hlone
        obtain ⟨⟨n, left⟩, hgather⟩ : ∃ p, gather largestSignificand 0 (digitRun c) = p := ⟨_, rfl⟩
        simp only [hgather] at h
        have halone (h : (if left.isEmpty then
            .ok (integer negative n, c.advanceBy (digitRun c).length)
            else finish negative n left.length (c.advanceBy (digitRun c).length)) =
              (.ok (number, c') : Except Error (Number × Cursor))) :
            left = [] ∧ number = integer negative n ∧ c' = c.advanceBy (digitRun c).length := by
          split at h
          · rename_i hempty
            cases h
            exact ⟨List.isEmpty_iff.mp hempty, rfl, rfl⟩
          · exact absurdly (float_of_finish h)
        obtain ⟨rfl, hnumber, hbehind⟩ : left = [] ∧ number = integer negative n ∧
            c' = c.advanceBy (digitRun c).length := by
          split at h
          · split at h
            · exact absurdly (float_of_readFraction h)
            · split at h
              · exact absurdly (float_of_readExponent h)
              · exact halone h
          · exact halone h
        exact ⟨byte, n, hpeek, by simpa using hdigit, by simpa using hlone, hgather, hnumber,
          hbehind⟩

/-- **An integer that has been read** behind its sign, in plain decimal. -/
theorem of_readUnsigned (h : readUnsigned negative c = .ok (number, c'))
    (noFloat : ∀ x, number ≠ .float x) :
    ∃ n, number = integer negative n ∧ n ≤ largestSignificand ∧
      c.rest = encode (Nat.toDigits 10 n) ++ c'.rest := by
  obtain ⟨byte, n, hpeek, hdigit, hlone, hgather, hnumber, rfl⟩ :=
    digits_of_readUnsigned h noFloat
  obtain ⟨hvalue, hle⟩ := gather_eq hgather (Nat.zero_le _)
  have hdigits := digits_of_peek? hpeek hdigit
  have hlength : (digitRun c).length = (c.rest.takeWhile Ascii.isDigit).length :=
    List.length_map ..
  rw [hlength] at hlone
  have hdecimal : n = Nat.ofDigitChars 10 (latin (c.rest.takeWhile Ascii.isDigit)) 0 := by
    rw [← foldl_digitValue hdigits, encode_digits]
    exact hvalue
  refine ⟨n, hnumber, hle, ?_⟩
  rw [hdecimal, toDigits_of_whole (wholeText_of_peek? hpeek hdigit hlone), encode_digits, hlength]
  exact rest_advanceBy_takeWhile c _

theorem integer_eq_natural {n size : Nat} (h : integer negative n = .natural size) :
    negative = false ∧ n = size := by
  unfold integer at h
  split at h
  · rename_i hpositive
    cases h
    exact ⟨by simpa using hpositive, rfl⟩
  · split at h <;> cases h

/-- A negative zero is no integer. -/
theorem integer_eq_negative {n size : Nat} (h : integer negative n = .negative size) :
    negative = true ∧ n = size ∧ 0 < size ∧ size ≤ 0x8000000000000000 := by
  unfold integer at h
  split at h
  · cases h
  · rename_i hnegative
    split at h
    · cases h
    · cases h
      exact ⟨by simpa using hnegative, rfl, by omega, by omega⟩

/-- **Numbers behind their sign**, up to which there are only blanks. -/
theorem of_readNumberAs {expected : String} (h : readNumberAs expected c = .ok (number, c')) :
    ∃ negative ws c₁, Blanks ws ∧ readUnsigned negative c₁ = .ok (number, c') ∧
      c.rest = encode ws ++ (encode (if negative then ['-'] else []) ++ c₁.rest) := by
  obtain ⟨ws, hws, hrest⟩ := c.exists_blanks
  unfold readNumberAs at h
  simp only at h
  split at h
  · cases h
  · split at h
    · unfold readNumber at h
      split at h
      · rename_i hminus
        refine ⟨true, ws, c.skipBlanks.advance, hws, h, ?_⟩
        rw [hrest, rest_of_looksAt hminus]
        rfl
      · exact ⟨false, ws, c.skipBlanks, hws, h, hrest⟩
    · cases h

/-- **An integer of 64 bits that has been read**, in plain decimal. -/
theorem of_readInt64 {n : Int} (h : readInt64 c = .ok (n, c')) :
    (-0x8000000000000000 ≤ n ∧ n < 0x8000000000000000) ∧
      ∃ ws, Blanks ws ∧ c.rest = encode ws ++ (encode (toString n).toList ++ c'.rest) := by
  obtain ⟨⟨number, c₁⟩, hread, h⟩ := exists_of_bind h
  obtain ⟨negative, ws, c₂, hws, hunsigned, hrest⟩ := of_readNumberAs hread
  rw [Int.toString_eq_repr, Int.repr_eq_if]
  cases number with
  | natural size =>
    simp only at h
    split at h
    · rename_i hlt
      cases h
      obtain ⟨m, hinteger, -, hdigits⟩ := of_readUnsigned hunsigned (by simp)
      obtain ⟨rfl, rfl⟩ := integer_eq_natural hinteger.symm
      refine ⟨⟨by omega, by omega⟩, ws, hws, ?_⟩
      rw [hrest, hdigits, if_pos (Int.natCast_nonneg _), Nat.toList_repr, Int.toNat_natCast]
      rfl
    · cases h
  | negative size =>
    cases h
    obtain ⟨m, hinteger, -, hdigits⟩ := of_readUnsigned hunsigned (by simp)
    obtain ⟨rfl, rfl, hpos, hle⟩ := integer_eq_negative hinteger.symm
    refine ⟨⟨by omega, by omega⟩, ws, hws, ?_⟩
    have hneg : ¬ 0 ≤ -(m : Int) := by omega
    rw [hrest, hdigits, if_pos rfl, if_neg hneg, String.toList_append, Nat.toList_repr,
      Int.neg_neg, Int.toNat_natCast, encode_append, List.append_assoc]
    rfl
  | float x => cases h

/-! ## Numbers that have been passed over -/

/-- **The digits of an exponent** behind its sign. -/
theorem of_skipPower (h : (match c.peek? with
    | none => c.fail .invalidNumber
    | some byte =>
      if Ascii.isDigit byte then .ok (c.advanceBy (c.rest.takeWhile Ascii.isDigit).length)
      else c.advance.fail .invalidNumber) = .ok c') :
    ∃ raw, c.rest = raw ++ c'.rest ∧ Digits (latin raw) := by
  split at h
  · cases h
  · rename_i byte hpeek
    split at h
    · rename_i hdigit
      cases h
      exact ⟨_, rest_advanceBy_takeWhile c _, digits_of_peek? hpeek hdigit⟩
    · cases h

theorem of_skipExponent (h : skipExponent c = .ok c') :
    ∃ raw sign digits, c.rest = raw ++ c'.rest ∧ latin raw = sign ++ digits ∧
      (sign = [] ∨ sign = ['+'] ∨ sign = ['-']) ∧ Digits digits := by
  unfold skipExponent at h
  by_cases hsign : (c.looksAt Ascii.minus || c.looksAt Ascii.plus) = true
  · rw [if_pos hsign] at h
    obtain ⟨raw, hrest, hdigits⟩ := of_skipPower h
    rcases Bool.or_eq_true_iff.mp hsign with hminus | hplus
    · refine ⟨Ascii.minus :: raw, ['-'], latin raw, ?_, rfl, .inr (.inr rfl), hdigits⟩
      rw [rest_of_looksAt hminus, hrest, List.cons_append]
    · refine ⟨Ascii.plus :: raw, ['+'], latin raw, ?_, rfl, .inr (.inl rfl), hdigits⟩
      rw [rest_of_looksAt hplus, hrest, List.cons_append]
  · rw [if_neg hsign] at h
    obtain ⟨raw, hrest, hdigits⟩ := of_skipPower h
    exact ⟨raw, [], latin raw, hrest, rfl, .inl rfl, hdigits⟩

theorem of_skipScaled (h : skipScaled c = .ok c') :
    ∃ raw, c.rest = raw ++ c'.rest ∧ ExponentText (latin raw) := by
  unfold skipScaled at h
  split at h
  · rename_i byte hpeek
    split at h
    · rename_i hmark
      obtain ⟨raw, sign, digits, hrest, hraw, hsign, hdigits⟩ := of_skipExponent h
      refine ⟨byte :: raw, by rw [rest_of_peek? hpeek, hrest, List.cons_append], ?_⟩
      rw [latin_cons, hraw]
      refine .power ?_ hsign hdigits
      rcases Bool.or_eq_true_iff.mp hmark with he | he
      · rw [beq_iff_eq.mp he]
        exact .inl rfl
      · rw [beq_iff_eq.mp he]
        exact .inr rfl
    · cases h
      exact ⟨[], rfl, .none⟩
  · cases h
    exact ⟨[], rfl, .none⟩

theorem of_skipFraction (h : skipFraction c = .ok c') :
    ∃ raw places power, c.rest = raw ++ c'.rest ∧ latin raw = places ++ power ∧
      Digits places ∧ ExponentText power := by
  unfold skipFraction at h
  simp only at h
  split at h
  · cases h
  · rename_i hne
    obtain ⟨raw, hrest, hpower⟩ := of_skipScaled h
    have hdigits : Digits (latin (c.rest.takeWhile Ascii.isDigit)) :=
      digits_latin (by simpa using hne)
    refine ⟨_ ++ raw, _, _, ?_, latin_append _ _, hdigits, hpower⟩
    rw [List.append_assoc, ← hrest]
    exact rest_advanceBy_takeWhile c _

/-- **A number that has been passed over** behind its sign, whatever the sign. -/
theorem of_skipNumber (h : skipNumber c = .ok c') :
    ∃ raw, c.rest = raw ++ c'.rest ∧
      ∀ sign, sign = [] ∨ sign = ['-'] → NumberText (sign ++ latin raw) := by
  unfold skipNumber at h
  split at h
  · cases h
  · rename_i byte hpeek
    split at h
    · cases h
    · rename_i hdigit
      simp only at h
      split at h
      · cases h
      · rename_i hlone
        have hwhole : WholeText (latin (c.rest.takeWhile Ascii.isDigit)) :=
          wholeText_of_peek? hpeek (by simpa using hdigit) (by simpa using hlone)
        have hrest := rest_advanceBy_takeWhile c Ascii.isDigit
        split at h
        · rename_i hpoint
          obtain ⟨raw, places, power, hbehind, hraw, hplaces, hpower⟩ := of_skipFraction h
          refine ⟨c.rest.takeWhile Ascii.isDigit ++ Ascii.point :: raw, ?_, fun sign hsign => ?_⟩
          · rw [List.append_assoc, List.cons_append, ← hbehind, ← rest_of_looksAt hpoint]
            exact hrest
          · rw [latin_append, latin_cons, hraw]
            exact .mk hsign hwhole (.places hplaces) hpower
        · obtain ⟨raw, hbehind, hpower⟩ := of_skipScaled h
          refine ⟨c.rest.takeWhile Ascii.isDigit ++ raw, ?_, fun sign hsign => ?_⟩
          · rw [List.append_assoc, ← hbehind]
            exact hrest
          · rw [latin_append]
            exact .mk hsign hwhole .none hpower

end OrderDesk.Json
