import OrderDesk.Json.Value
import OrderDesk.Proofs.Decimal.Shortest
import OrderDesk.Proofs.Json.Number

/-!
# Numbers as they are written

The text of a number denotes a rational: all of its digits as one number, times a power of ten that
is one less for each place behind the point. A finite float is written as a text that denotes a
rational which rounds to it, whether with a power of ten or without.

## Main definitions

* `Denotes`: the rational of a text

## Main results

* `denotes_positional`, `denotes_scientific`: the two ways to write a decimal
* `exists_denotes_ofFloat`: a finite float is written as a rational that rounds to it
-/

namespace OrderDesk.Json

open Decimal

/-! ## Texts with their values -/

/-- The places behind the point, with their digits. -/
inductive PlacesOf : List Char → List Char → Prop
  | none : PlacesOf [] []
  | places {cs : List Char} (digits : Digits cs) : PlacesOf ('.' :: cs) cs

/-- A power of ten, with its exponent. -/
inductive PowerOf : List Char → ℤ → Prop
  | none : PowerOf [] 0
  | up {cs : List Char} (digits : Digits cs) :
    PowerOf ('e' :: '+' :: cs) (Nat.ofDigitChars 10 cs 0 : ℕ)
  | down {cs : List Char} (digits : Digits cs) :
    PowerOf ('e' :: '-' :: cs) (-(Nat.ofDigitChars 10 cs 0 : ℕ))

/-- **The rational that a number denotes.** -/
inductive Denotes : List Char → ℚ → Prop
  | positive {cs ds es places : List Char} {power : ℤ} (whole : WholeText cs)
    (fraction : PlacesOf ds places) (exponent : PowerOf es power) :
    Denotes (cs ++ (ds ++ es))
      ((Nat.ofDigitChars 10 (cs ++ places) 0 : ℕ) * 10 ^ (power - places.length))
  | negative {cs ds es places : List Char} {power : ℤ} (whole : WholeText cs)
    (fraction : PlacesOf ds places) (exponent : PowerOf es power) :
    Denotes ('-' :: (cs ++ (ds ++ es)))
      (-((Nat.ofDigitChars 10 (cs ++ places) 0 : ℕ) * 10 ^ (power - places.length)))

variable {cs ds es places : List Char} {power : ℤ} {q : ℚ} {d : Numeral}

theorem PlacesOf.fractionText (h : PlacesOf ds places) : FractionText ds := by
  cases h with
  | none => exact .none
  | places digits => exact .places digits

theorem PowerOf.exponentText (h : PowerOf es power) : ExponentText es := by
  cases h with
  | none => exact .none
  | up digits => exact .power (.inl rfl) (.inr (.inl rfl)) digits
  | down digits => exact .power (.inl rfl) (.inr (.inr rfl)) digits

/-- **What denotes a rational is a number.** -/
theorem Denotes.numberText (h : Denotes cs q) : NumberText cs := by
  cases h with
  | positive whole fraction exponent =>
    exact .mk (.inl rfl) whole fraction.fractionText exponent.exponentText
  | negative whole fraction exponent =>
    exact .mk (.inr rfl) whole fraction.fractionText exponent.exponentText

/-! ## Digits -/

theorem digits_digitChars (n : ℕ) : Digits (digitChars n) := digits_toDigits n

theorem ofDigitChars_digitChars (n : ℕ) : Nat.ofDigitChars 10 (digitChars n) 0 = n :=
  Nat.ofDigitChars_toDigits (by decide) (by decide)

theorem head?_digitChars {n : ℕ} (pos : 0 < n) : (digitChars n).head? ≠ some '0' := fun h =>
  absurd (head?_toDigits h) (by omega)

theorem Digits.append (h : Digits cs) (digits : ∀ c ∈ ds, c.isDigit = true) :
    Digits (cs ++ ds) where
  ne_nil := List.append_ne_nil_of_left_ne_nil h.ne_nil ds
  isDigit c mem := (List.mem_append.mp mem).elim (h.isDigit c) (digits c)

theorem isDigit_zeros (n : ℕ) : ∀ c ∈ List.replicate n '0', c.isDigit = true := fun _ mem =>
  List.eq_of_mem_replicate mem ▸ rfl

/-- Zeros behind a number. -/
theorem ofDigitChars_zeros (cs : List Char) (n : ℕ) :
    Nat.ofDigitChars 10 (cs ++ List.replicate n '0') 0 = Nat.ofDigitChars 10 cs 0 * 10 ^ n := by
  rw [Nat.ofDigitChars_append, Nat.ofDigitChars_replicate_zero, mul_comm]

/-- Zeros in front of a number. -/
theorem ofDigitChars_zeros_append (n : ℕ) (cs : List Char) :
    Nat.ofDigitChars 10 (List.replicate n '0' ++ cs) 0 = Nat.ofDigitChars 10 cs 0 := by
  rw [Nat.ofDigitChars_append, Nat.ofDigitChars_replicate_zero, mul_zero]

/-! ## Layouts -/

/-- **Without a power of ten**, and with a place behind the point. -/
theorem denotes_positional (pos : 0 < d.digits) :
    ∃ cs ds places, positional d ['.', '0'] = cs ++ ds ∧ WholeText cs ∧ PlacesOf ds places ∧
      ((Nat.ofDigitChars 10 (cs ++ places) 0 : ℕ) : ℚ) * 10 ^ (-(places.length : ℤ)) = d.value := by
  have hhead := head?_digitChars pos
  have hdigits := digits_digitChars d.digits
  unfold positional
  simp only
  split
  · rename_i h
    refine ⟨digitChars d.digits ++ List.replicate d.exponent.toNat '0', ['.', '0'], ['0'], rfl,
      .digits (hdigits.append (isDigit_zeros _)) ?_,
      .places ⟨List.cons_ne_nil _ _, isDigit_zeros 1⟩, ?_⟩
    · rwa [List.head?_append_of_ne_nil _ hdigits.ne_nil]
    · have hzeros := ofDigitChars_zeros (digitChars d.digits) (d.exponent.toNat + 1)
      rw [List.replicate_succ', ← List.append_assoc, ofDigitChars_digitChars] at hzeros
      rw [hzeros, Numeral.value, List.length_singleton, Nat.cast_mul, Nat.cast_pow, Nat.cast_ofNat,
        mul_assoc, ← zpow_natCast, ← zpow_add₀ (by norm_num), Nat.cast_succ,
        Int.toNat_of_nonneg h]
      norm_num
  · rename_i h
    split
    · rename_i hpoint
      have hcount : (-d.exponent).toNat ≤ (digitChars d.digits).length := hpoint.le
      generalize hk : (digitChars d.digits).length - (-d.exponent).toNat = k
      refine ⟨(digitChars d.digits).take k, '.' :: (digitChars d.digits).drop k,
        (digitChars d.digits).drop k, rfl, .digits ⟨?_, ?_⟩ ?_, .places ⟨?_, ?_⟩, ?_⟩
      · rw [Ne, List.take_eq_nil_iff, not_or]
        exact ⟨by omega, hdigits.ne_nil⟩
      · exact fun c mem => hdigits.isDigit c (List.mem_of_mem_take mem)
      · rwa [List.head?_take, if_neg (by omega)]
      · rw [Ne, List.drop_eq_nil_iff]
        omega
      · exact fun c mem => hdigits.isDigit c (List.mem_of_mem_drop mem)
      · rw [List.take_append_drop, ofDigitChars_digitChars, Numeral.value, List.length_drop]
        congr 2
        omega
    · rename_i hpoint
      refine ⟨['0'], '.' :: _, _, rfl, .zero, .places ⟨?_, ?_⟩, ?_⟩
      · exact List.append_ne_nil_of_right_ne_nil _ hdigits.ne_nil
      · intro c mem
        exact (List.mem_append.mp mem).elim (isDigit_zeros _ c) (hdigits.isDigit c)
      · rw [← List.append_assoc, List.singleton_append, ← List.replicate_succ,
          ofDigitChars_zeros_append, ofDigitChars_digitChars, Numeral.value, List.length_append,
          List.length_replicate]
        congr 2
        omega

theorem powerOf_exponentChars (e : ℤ) : PowerOf (exponentChars e) e := by
  have hdigits := digits_digitChars e.natAbs
  have hvalue := ofDigitChars_digitChars e.natAbs
  unfold exponentChars
  split
  · rename_i h
    have hpower := PowerOf.down hdigits
    rwa [hvalue, show -(e.natAbs : ℤ) = e by omega] at hpower
  · rename_i h
    have hpower := PowerOf.up hdigits
    rwa [hvalue, show (e.natAbs : ℤ) = e by omega] at hpower

/-- **With a power of ten**, behind one digit and its places. -/
theorem denotes_scientific (pos : 0 < d.digits) :
    ∃ cs ds es places power, scientific d = cs ++ (ds ++ es) ∧ WholeText cs ∧ PlacesOf ds places ∧
      PowerOf es power ∧
      ((Nat.ofDigitChars 10 (cs ++ places) 0 : ℕ) : ℚ) * 10 ^ (power - places.length) =
        d.value := by
  have hhead := head?_digitChars pos
  have hdigits := digits_digitChars d.digits
  have hvalue := ofDigitChars_digitChars d.digits
  unfold scientific
  simp only
  split
  · rename_i hnil
    exact absurd hnil hdigits.ne_nil
  · rename_i a hone
    rw [hone] at hhead hdigits hvalue
    refine ⟨[a], [], _, [], _, rfl, .digits hdigits hhead, .none, powerOf_exponentChars _, ?_⟩
    rw [List.append_nil, hvalue, Numeral.value, hone]
    congr 2
    simp
  · rename_i a places hnonempty hmore
    rw [hmore] at hhead hdigits hvalue
    obtain ⟨ha, hplaces⟩ := List.forall_mem_cons.mp hdigits.isDigit
    refine ⟨[a], '.' :: places, _, places, _, rfl, .digits ⟨List.cons_ne_nil _ _, ?_⟩ hhead,
      .places ⟨hnonempty, hplaces⟩, powerOf_exponentChars _, ?_⟩
    · exact List.forall_mem_singleton.mpr ha
    · rw [List.singleton_append, hvalue, Numeral.value, hmore, List.length_cons]
      congr 2
      push_cast
      ring

/-! ## Floats -/

/-- The sign is written in front. -/
theorem writtenBinary_eq (b : Binary) : ∃ digits,
    writtenBinary b = (if b.negative then '-' :: digits else digits) ∧
      digits = if b.significand = 0 then ['0', '.', '0'] else
        if -5 ≤ (shortest .toEven b).exponent + digitCount (shortest .toEven b).digits - 1 ∧
            (shortest .toEven b).exponent + digitCount (shortest .toEven b).digits - 1 < 16
          then positional (shortest .toEven b) ['.', '0'] else scientific (shortest .toEven b) :=
  ⟨_, rfl, rfl⟩

/-- **A finite number is written** as a rational that rounds to it. -/
theorem exists_denotes_writtenBinary {b : Binary} (proper : b.Proper) :
    ∃ q, Denotes (writtenBinary b) q ∧ b.Rounds (if b.negative then -q else q) := by
  obtain ⟨digits, hwritten, hdigits⟩ := writtenBinary_eq b
  have hunsigned : ∃ cs ds es places power, WholeText cs ∧ PlacesOf ds places ∧ PowerOf es power ∧
      digits = cs ++ (ds ++ es) ∧
      b.Rounds ((Nat.ofDigitChars 10 (cs ++ places) 0 : ℕ) * 10 ^ (power - places.length)) := by
    split at hdigits
    · rename_i hzero
      refine ⟨['0'], ['.', '0'], [], ['0'], 0, .zero,
        .places ⟨List.cons_ne_nil _ _, isDigit_zeros 1⟩, .none, hdigits, ?_⟩
      have hself := b.rounds_self
      rw [hzero, Nat.cast_zero, zero_mul] at hself
      have hvalue : Nat.ofDigitChars 10 (['0'] ++ ['0']) 0 = 0 := rfl
      rwa [hvalue, Nat.cast_zero, zero_mul]
    · rename_i hzero
      obtain ⟨hpos, hrounds⟩ := shortest_rounds .toEven proper (Nat.pos_of_ne_zero hzero)
      split at hdigits
      · obtain ⟨cs, ds, places, htext, whole, fraction, hvalue⟩ := denotes_positional hpos
        refine ⟨cs, ds, [], places, 0, whole, fraction, .none, ?_, ?_⟩
        · rw [hdigits, htext, List.append_nil]
        · rwa [zero_sub, hvalue]
      · obtain ⟨cs, ds, es, places, power, htext, whole, fraction, exponent, hvalue⟩ :=
          denotes_scientific hpos
        refine ⟨cs, ds, es, places, power, whole, fraction, exponent, hdigits.trans htext, ?_⟩
        rwa [hvalue]
  obtain ⟨cs, ds, es, places, power, whole, fraction, exponent, rfl, hrounds⟩ := hunsigned
  rw [hwritten]
  split
  · exact ⟨_, .negative whole fraction exponent, by rwa [neg_neg]⟩
  · exact ⟨_, .positive whole fraction exponent, hrounds⟩

/-- **A finite float is written** as a rational that rounds to it. -/
theorem exists_denotes_ofFloat {x : Float} (finite : x.isFinite = true) :
    ∃ q, Denotes (Value.ofFloat x).renderChars q ∧ RoundsTo q x := by
  cases h : Binary.ofFloat? x with
  | none =>
    rw [ofFloat?_eq_none_iff.mp h] at finite
    cases finite
  | some b =>
    obtain ⟨q, denotes, rounds⟩ := exists_denotes_writtenBinary (Binary.proper_of_ofFloat? h)
    refine ⟨q, ?_, b, h, rounds⟩
    show Denotes ((writtenChars? x).getD ['n', 'u', 'l', 'l']) q
    rwa [writtenChars?, h]

/-- **A float that is not finite** is written as the word for nothing. -/
theorem renderChars_ofFloat_infinite {x : Float} (infinite : x.isFinite = false) :
    (Value.ofFloat x).renderChars = ['n', 'u', 'l', 'l'] := by
  show (writtenChars? x).getD ['n', 'u', 'l', 'l'] = _
  rw [writtenChars?, ofFloat?_eq_none_iff.mpr infinite]
  rfl

end OrderDesk.Json
