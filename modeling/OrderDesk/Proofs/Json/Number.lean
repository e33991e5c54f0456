import Mathlib.Data.List.TakeWhile
import OrderDesk.Proofs.Json.Cursor

/-!
# Numbers that are read and passed over

An integer of 64 bits in plain decimal is read exactly, and what is passed over may be any number.
Both end where the digits do, so something has to follow that does not go on with the number.

## Main results

* `gather_of_le`: digits that stay within the limit are all gathered
* `takes_int64`: plain decimals are read
* `skipNumber_unsigned`: every number is passed over, behind its sign
-/

namespace OrderDesk.Json

open Text Text.Utf8 Cursor

variable {c : Cursor} {tail rest : List UInt8} {cs : List Char}

/-! ## Digits -/

theorem isDigit_byte {ch : Char} (h : ch.isDigit = true) :
    ch.toNat < 128 ∧ Ascii.isDigit (UInt8.ofNat ch.toNat) = true ∧
      Ascii.digitValue (UInt8.ofNat ch.toNat) = ch.toNat - '0'.toNat := by
  obtain ⟨hle, hle'⟩ : 48 ≤ ch.toNat ∧ ch.toNat ≤ 57 := by
    simpa [Char.isDigit, UInt32.le_iff_toNat_le] using h
  have hnat : (UInt8.ofNat ch.toNat).toNat = ch.toNat := by
    simp
    omega
  refine ⟨by omega, ?_, ?_⟩
  · simp only [Ascii.isDigit, UInt8.le_iff_toNat_le, hnat, Bool.and_eq_true, decide_eq_true_eq]
    exact ⟨hle, hle'⟩
  · rw [Ascii.digitValue, hnat]
    rfl

/-- **Digits end** at the first byte that is none. -/
theorem takeWhile_digits (digits : ∀ ch ∈ cs, ch.isDigit = true)
    (ends : ∀ byte ∈ rest.head?, Ascii.isDigit byte = false) :
    (encode cs ++ rest).takeWhile Ascii.isDigit = encode cs := by
  induction cs with
  | nil =>
    cases rest with
    | nil => rfl
    | cons byte rest =>
      rw [encode_nil, List.nil_append, List.takeWhile_cons_of_neg]
      simp [ends byte rfl]
  | cons ch cs ih =>
    obtain ⟨hch, hcs⟩ := List.forall_mem_cons.mp digits
    obtain ⟨hascii, hdigit, -⟩ := isDigit_byte hch
    rw [encode_cons_ascii hascii, List.cons_append, List.takeWhile_cons_of_pos hdigit, ih hcs]

theorem map_digitValue (digits : ∀ ch ∈ cs, ch.isDigit = true) :
    (encode cs).map Ascii.digitValue = cs.map fun ch => ch.toNat - '0'.toNat := by
  induction cs with
  | nil => rfl
  | cons ch cs ih =>
    obtain ⟨hch, hcs⟩ := List.forall_mem_cons.mp digits
    obtain ⟨hascii, -, hvalue⟩ := isDigit_byte hch
    rw [encode_cons_ascii hascii, List.map_cons, List.map_cons, hvalue, ih hcs]

theorem isBlank_of_isDigit {byte : UInt8} (h : Ascii.isDigit byte = true) :
    Cursor.isBlank byte = false := by
  rw [Ascii.isDigit, Bool.and_eq_true, decide_eq_true_eq, decide_eq_true_eq] at h
  have hne (blank : UInt8) (hlt : blank < 0x30) : (byte == blank) = false := by
    rw [beq_eq_false_iff_ne]
    rintro rfl
    exact absurd h.1 (UInt8.not_le.mpr hlt)
  rw [Cursor.isBlank, hne _ (by decide), hne _ (by decide), hne _ (by decide), hne _ (by decide)]
  rfl

/-- The first of some digits, as a byte. -/
theorem Digits.exists_cons (digits : Digits cs) :
    ∃ byte bytes, encode cs = byte :: bytes ∧ Ascii.isDigit byte = true := by
  cases cs with
  | nil => exact absurd rfl digits.ne_nil
  | cons ch cs =>
    obtain ⟨hascii, hdigit, -⟩ := isDigit_byte (digits.isDigit ch (List.mem_cons_self ..))
    exact ⟨_, _, encode_cons_ascii hascii cs, hdigit⟩

/-- **A zero in front stands alone.** -/
theorem WholeText.zero_alone (whole : WholeText cs) {byte : UInt8} {bytes : List UInt8}
    (h : encode cs = byte :: bytes) (zero : byte = Ascii.zero) : bytes = [] := by
  cases whole with
  | zero =>
    obtain ⟨-, rfl⟩ := List.cons.inj h
    rfl
  | digits digits head =>
    cases cs with
    | nil => exact absurd rfl digits.ne_nil
    | cons ch cs =>
      obtain ⟨hascii, -, hvalue⟩ := isDigit_byte (digits.isDigit ch (List.mem_cons_self ..))
      obtain ⟨hlead, -⟩ := List.cons.inj ((encode_cons_ascii hascii cs).symm.trans h)
      have hch : (UInt8.ofNat ch.toNat).toNat = ch.toNat := by
        simp
        omega
      rw [hlead, zero] at hch
      exact absurd (congrArg some (Char.toNat_inj.mp hch.symm)) head

theorem WholeText.toDigits (whole : WholeText cs) : Digits cs := by
  cases whole with
  | zero => exact ⟨by simp, by simp⟩
  | digits digits _ => exact digits

/-! ## Plain decimals -/

theorem le_foldl_digits (ds : List Nat) (n : Nat) :
    n ≤ ds.foldl (fun n d => n * 10 + d) n := by
  induction ds generalizing n with
  | nil => exact Nat.le_refl n
  | cons d ds ih => exact Nat.le_trans (by omega) (ih (n * 10 + d))

/-- **Digits that stay within the limit** are all gathered. -/
theorem gather_of_le {limit : Nat} (ds : List Nat) (n : Nat)
    (h : ds.foldl (fun n d => n * 10 + d) n ≤ limit) :
    gather limit n ds = (ds.foldl (fun n d => n * 10 + d) n, []) := by
  induction ds generalizing n with
  | nil => rfl
  | cons d ds ih =>
    have hle := Nat.le_trans (le_foldl_digits ds (n * 10 + d)) h
    rw [gather, if_neg (Nat.not_lt_of_le hle), ih _ h, List.foldl_cons]

theorem digits_toDigits (n : Nat) : Digits (Nat.toDigits 10 n) :=
  ⟨Nat.toDigits_ne_nil, fun _ => Nat.isDigit_of_mem_toDigits (by decide) (by decide)⟩

theorem foldl_toDigits (n : Nat) :
    ((encode (Nat.toDigits 10 n)).map Ascii.digitValue).foldl (fun n d => n * 10 + d) 0 = n := by
  rw [map_digitValue (digits_toDigits n).isDigit, List.foldl_map]
  have hvalue := Nat.ofDigitChars_toDigits (b := 10) (n := n) (by decide) (by decide)
  simpa [Nat.ofDigitChars, Nat.mul_comm] using hvalue

/-- Only zero begins with a zero. -/
theorem head?_toDigits {n : Nat} (h : (Nat.toDigits 10 n).head? = some '0') : n = 0 := by
  induction n using Nat.strongRecOn with
  | ind n ih =>
    by_cases hlt : n < 10
    · rw [Nat.toDigits_of_lt_base hlt, List.head?_cons] at h
      have hdigits : ∀ n < 10, Nat.digitChar n = '0' → n = 0 := by decide
      exact hdigits n hlt (Option.some.inj h)
    · have hne : Nat.toDigits 10 (n / 10) ≠ [] := Nat.toDigits_ne_nil
      obtain ⟨d, ds, hds⟩ := List.exists_cons_of_ne_nil hne
      rw [Nat.toDigits_of_base_le (by decide) (by omega), hds] at h
      have hzero := ih (n / 10) (by omega) (by rw [hds]; exact h)
      omega

theorem wholeText_toDigits (n : Nat) : WholeText (Nat.toDigits 10 n) := by
  by_cases h : (Nat.toDigits 10 n).head? = some '0'
  · rw [head?_toDigits h]
    exact .zero
  · exact .digits (digits_toDigits n) h

theorem Stops.not_digit (stops : Stops tail) : ∀ byte ∈ tail.head?, Ascii.isDigit byte = false := by
  cases tail with
  | nil => simp
  | cons byte tail => simpa using stops.1

/-- **The digits of a number** that fits in 64 bits are read as that number. -/
theorem readUnsigned_of (negative : Bool) {n : Nat} (fits : n ≤ largestSignificand)
    (h : c.rest = encode (Nat.toDigits 10 n) ++ tail) (stops : Stops tail) :
    ∃ c', readUnsigned negative c = .ok (integer negative n, c') ∧ c'.rest = tail := by
  obtain ⟨byte, bytes, hbytes, hdigit⟩ := (digits_toDigits n).exists_cons
  have hpeek : c.peek? = some byte := peek?_of (by rw [h, hbytes, List.cons_append])
  have htake := takeWhile_digits (digits_toDigits n).isDigit stops.not_digit
  have hrun : digitRun c = (encode (Nat.toDigits 10 n)).map Ascii.digitValue := by
    rw [digitRun, h, htake]
  have hlone : ¬ ((byte == Ascii.zero) = true ∧ 1 < (digitRun c).length) := by
    rintro ⟨hzero, hlength⟩
    rw [hrun, hbytes, (wholeText_toDigits n).zero_alone hbytes (by simpa using hzero)] at hlength
    simp at hlength
  have hgather : gather largestSignificand 0 (digitRun c) = (n, []) := by
    rw [hrun, gather_of_le _ _ (by rw [foldl_toDigits]; exact fits), foldl_toDigits]
  have hbehind : (c.advanceBy (digitRun c).length).rest = tail := by
    rw [advanceBy, hrun, List.length_map, h, List.drop_left]
  refine ⟨_, ?_, hbehind⟩
  simp only [readUnsigned, hpeek, hdigit, Bool.not_true, Bool.false_eq_true, if_false, hgather,
    List.isEmpty_nil, if_true]
  rw [if_neg hlone]
  cases tail with
  | nil => rw [peek?, hbehind, List.head?_nil]
  | cons next tail =>
    obtain ⟨-, hpoint, hmark⟩ := stops
    simp [peek?_of hbehind, hpoint, hmark]

theorem takes_natural (expected : String) {n : Nat} (fits : n ≤ largestSignificand) :
    Takes (readNumberAs expected) (Nat.toDigits 10 n) (.natural n) := by
  intro c ws tail blanks h stops
  obtain ⟨byte, bytes, hbytes, hdigit⟩ := (digits_toDigits n).exists_cons
  have hrest : c.skipBlanks.rest = encode (Nat.toDigits 10 n) ++ tail := by
    rw [hbytes] at h ⊢
    exact rest_skipBlanks_of blanks h (isBlank_of_isDigit hdigit)
  obtain ⟨c', hread, hrest'⟩ := readUnsigned_of false fits hrest stops
  rw [hbytes, List.cons_append] at hrest
  have hminus : c.skipBlanks.looksAt Ascii.minus = false := by
    rw [looksAt_of hrest, beq_eq_false_iff_ne]
    rintro rfl
    cases hdigit
  refine ⟨c', ?_, hrest'⟩
  simp [readNumberAs, peek?_of hrest, hdigit, readNumber, hminus, hread, integer]

theorem takes_negative (expected : String) {n : Nat} (pos : 0 < n)
    (fits : n ≤ 0x8000000000000000) :
    Takes (readNumberAs expected) ('-' :: Nat.toDigits 10 n) (.negative n) := by
  intro c ws tail blanks h stops
  have hrest : c.skipBlanks.rest = Ascii.minus :: (encode (Nat.toDigits 10 n) ++ tail) :=
    rest_skipBlanks_of blanks h rfl
  have hfits : n ≤ largestSignificand := Nat.le_trans fits (by decide)
  obtain ⟨c', hread, hrest'⟩ := readUnsigned_of true hfits (rest_advance hrest) stops
  have hminus : c.skipBlanks.looksAt Ascii.minus = true := by
    rw [looksAt_of hrest, beq_self_eq_true]
  have hinteger : integer true n = .negative n := by
    rw [integer, if_neg (by simp), if_neg (by omega)]
  refine ⟨c', ?_, hrest'⟩
  simp [readNumberAs, peek?_of hrest, readNumber, hminus, hread, hinteger]

/-- **Plain decimals** of integers of 64 bits are read exactly. A negative zero is none: the sign
makes it a float. -/
theorem takes_int64 {n : Int} (fits : -0x8000000000000000 ≤ n ∧ n < 0x8000000000000000) :
    Takes readInt64 (toString n).toList n := by
  intro c ws tail blanks h stops
  rw [Int.toString_eq_repr, Int.repr_eq_if] at h
  by_cases hn : 0 ≤ n
  · rw [if_pos hn, Nat.toList_repr] at h
    have hfits : n.toNat ≤ largestSignificand :=
      Nat.le_trans (by omega) (by decide : 0x8000000000000000 ≤ _)
    obtain ⟨c', hread, hrest⟩ := takes_natural "i64" hfits blanks h stops
    refine ⟨c', ?_, hrest⟩
    have hlt : n.toNat < 0x8000000000000000 := by omega
    simp only [readInt64, hread, bind, Except.bind, if_pos hlt, Int.toNat_of_nonneg hn]
  · rw [if_neg hn, String.toList_append, Nat.toList_repr] at h
    obtain ⟨c', hread, hrest⟩ := takes_negative "i64" (n := (-n).toNat) (by omega) (by omega)
      blanks h stops
    refine ⟨c', ?_, hrest⟩
    have hneg : -((-n).toNat : Int) = n := by omega
    simp only [readInt64, hread, bind, Except.bind, hneg]

/-! ## Numbers that are passed over -/

theorem advanceBy_digits (digits : Digits cs) (h : c.rest = encode cs ++ rest)
    (ends : ∀ byte ∈ rest.head?, Ascii.isDigit byte = false) :
    (c.advanceBy (c.rest.takeWhile Ascii.isDigit).length).rest = rest := by
  rw [advanceBy, h, takeWhile_digits digits.isDigit ends, List.drop_left]

theorem skipExponent_of {sign : List Char} (signs : sign = [] ∨ sign = ['+'] ∨ sign = ['-'])
    (digits : Digits cs) (h : c.rest = encode (sign ++ cs) ++ tail) (stops : Stops tail) :
    ∃ c', skipExponent c = .ok c' ∧ c'.rest = tail := by
  obtain ⟨byte, bytes, hbytes, hdigit⟩ := digits.exists_cons
  have hsign : (if c.looksAt Ascii.minus || c.looksAt Ascii.plus then c.advance else c).rest =
      encode cs ++ tail := by
    rcases signs with rfl | rfl | rfl
    · rw [List.nil_append] at h
      have hrest : c.rest = byte :: (bytes ++ tail) := by rw [h, hbytes, List.cons_append]
      have hne (other : UInt8) (hother : Ascii.isDigit other = false) :
          c.looksAt other = false := by
        rw [looksAt_of hrest, beq_eq_false_iff_ne]
        rintro rfl
        rw [hdigit] at hother
        cases hother
      rw [hne Ascii.minus rfl, hne Ascii.plus rfl]
      exact h
    · have hrest : c.rest = Ascii.plus :: (encode cs ++ tail) := h
      rw [looksAt_of hrest, looksAt_of hrest]
      exact rest_advance hrest
    · have hrest : c.rest = Ascii.minus :: (encode cs ++ tail) := h
      rw [looksAt_of hrest, looksAt_of hrest]
      exact rest_advance hrest
  refine ⟨_, ?_, advanceBy_digits digits hsign stops.not_digit⟩
  rw [hbytes, List.cons_append] at hsign
  simp only [skipExponent, peek?_of hsign, hdigit, if_true]

theorem skipScaled_of (exponent : ExponentText cs) (h : c.rest = encode cs ++ tail)
    (stops : Stops tail) : ∃ c', skipScaled c = .ok c' ∧ c'.rest = tail := by
  cases exponent with
  | none =>
    refine ⟨c, ?_, h⟩
    cases tail with
    | nil => rw [skipScaled, peek?, h, encode_nil, List.nil_append, List.head?_nil]
    | cons byte tail =>
      obtain ⟨-, -, hmark⟩ := stops
      have hrest : c.rest = byte :: tail := h
      simp [skipScaled, peek?_of hrest, hmark]
  | @power mark sign cs marks signs digits =>
    obtain ⟨byte, hrest, hmark⟩ : ∃ byte, c.rest = byte :: (encode (sign ++ cs) ++ tail) ∧
        Ascii.isExponentMark byte = true := by
      rcases marks with rfl | rfl
      · exact ⟨0x65, h, rfl⟩
      · exact ⟨0x45, h, rfl⟩
    obtain ⟨c', hskip, hrest'⟩ := skipExponent_of signs digits (rest_advance hrest) stops
    refine ⟨c', ?_, hrest'⟩
    simp only [skipScaled, peek?_of hrest, hmark, if_true, hskip]

/-- What follows the digits of a number is no digit, and no point unless places follow. -/
theorem ExponentText.head (exponent : ExponentText cs) (stops : Stops tail) :
    ∀ byte ∈ (encode cs ++ tail).head?, Ascii.isDigit byte = false ∧ byte ≠ Ascii.point := by
  cases exponent with
  | none =>
    cases tail with
    | nil => simp
    | cons byte tail => simpa using ⟨stops.1, stops.2.1⟩
  | power marks signs digits =>
    rcases marks with rfl | rfl <;>
      · rintro _ ⟨⟩
        decide

theorem skipFraction_of {ds : List Char} (digits : Digits ds) (exponent : ExponentText cs)
    (h : c.rest = encode ds ++ (encode cs ++ tail)) (stops : Stops tail) :
    ∃ c', skipFraction c = .ok c' ∧ c'.rest = tail := by
  have hends := fun byte hbyte => (exponent.head stops byte hbyte).1
  obtain ⟨c', hskip, hrest⟩ := skipScaled_of exponent (advanceBy_digits digits h hends) stops
  obtain ⟨byte, bytes, hbytes, -⟩ := digits.exists_cons
  refine ⟨c', ?_, hrest⟩
  have htake : (c.rest.takeWhile Ascii.isDigit).isEmpty = false := by
    rw [h, takeWhile_digits digits.isDigit hends, hbytes]
    rfl
  simp only [skipFraction, htake, hskip]
  rfl

theorem skipNumber_unsigned {ds es : List Char} (whole : WholeText cs) (fraction : FractionText ds)
    (exponent : ExponentText es) (h : c.rest = encode cs ++ (encode ds ++ (encode es ++ tail)))
    (stops : Stops tail) : ∃ c', skipNumber c = .ok c' ∧ c'.rest = tail := by
  have hends : ∀ byte ∈ (encode ds ++ (encode es ++ tail)).head?, Ascii.isDigit byte = false := by
    cases fraction with
    | none => exact fun byte hbyte => (exponent.head stops byte hbyte).1
    | places digits =>
      rintro _ ⟨⟩
      rfl
  obtain ⟨byte, bytes, hbytes, hdigit⟩ := whole.toDigits.exists_cons
  have hpeek : c.peek? = some byte := peek?_of (by rw [h, hbytes, List.cons_append])
  have hlone : ¬ (byte == Ascii.zero && decide (1 < (c.rest.takeWhile Ascii.isDigit).length)) =
      true := by
    rw [Bool.and_eq_true, decide_eq_true_eq]
    rintro ⟨hzero, hlength⟩
    rw [h, takeWhile_digits whole.toDigits.isDigit hends, hbytes,
      whole.zero_alone hbytes (by simpa using hzero)] at hlength
    simp at hlength
  have hbehind := advanceBy_digits whole.toDigits h hends
  simp only [skipNumber, hpeek, hdigit, Bool.not_true, Bool.false_eq_true, if_false, if_neg hlone]
  cases fraction with
  | none =>
    have hpoint : (c.advanceBy (c.rest.takeWhile Ascii.isDigit).length).looksAt Ascii.point =
        false := by
      rw [looksAt, hbehind, beq_eq_false_iff_ne]
      intro hhead
      exact (exponent.head stops Ascii.point hhead).2 rfl
    rw [if_neg (by simp [hpoint])]
    exact skipScaled_of exponent hbehind stops
  | @places ds digits =>
    have hrest : (c.advanceBy (c.rest.takeWhile Ascii.isDigit).length).rest =
        Ascii.point :: (encode ds ++ (encode es ++ tail)) := hbehind
    rw [if_pos (by rw [looksAt_of hrest]; rfl)]
    exact skipFraction_of digits exponent (rest_advance hrest) stops

end OrderDesk.Json
