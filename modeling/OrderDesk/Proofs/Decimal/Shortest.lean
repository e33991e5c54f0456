import Mathlib
import OrderDesk.Decimal.Shortest

/-!
# The shortest decimal of a number rounds to it

A finite number `m · 2 ^ q` stands for the reals that are nearer to it than to its neighbours. The
digits that are written for it are of such a real, so whoever rounds them correctly gets the number
back.

## The grids

The digits are looked for on coarse grids first, each ten times finer than the one before. A grid
has a point among those reals as soon as its points are less far apart than they reach. The
seventeenth grid is that fine: its points are at most `10 ^ -16` of the number apart, and the reals
reach over a last place of at least `2 ^ -53` of it, or over three quarters of `2 ^ -52` where the
gap below is half the gap above.

## Main definitions

* `Numeral.value`: the rational of a decimal
* `Binary.Rounds`: the rationals that a number stands for
* `RoundsTo`: the rationals that round to a float

## Main results

* `ofFloat?_eq_none_iff`: the floats that are finite
* `shortest_rounds`: the shortest decimal of a number is one that it stands for
-/

namespace OrderDesk.Decimal

/-- **The value of a decimal.** -/
def Numeral.value (d : Numeral) : ℚ := d.digits * (10 : ℚ) ^ d.exponent

/-- **The rationals that a number stands for**, without its sign: those up to the middle between it
and its neighbours. A middle itself is rounded to the even one of the two. -/
structure Binary.Rounds (b : Binary) (x : ℚ) : Prop where
  low : ((b.significand : ℚ) - if b.narrow then 1 / 4 else 1 / 2) * 2 ^ b.exponent ≤ x
  high : x ≤ ((b.significand : ℚ) + 1 / 2) * 2 ^ b.exponent
  within : b.significand % 2 = 1 →
    ((b.significand : ℚ) - if b.narrow then 1 / 4 else 1 / 2) * 2 ^ b.exponent < x ∧
      x < ((b.significand : ℚ) + 1 / 2) * 2 ^ b.exponent

/-- **A rational rounds to a float**, which is finite then. -/
def RoundsTo (x : ℚ) (f : Float) : Prop :=
  ∃ b, Binary.ofFloat? f = some b ∧ b.Rounds (if b.negative then -x else x)

/-- **A number of 53 binary places**; the gap below it is narrow only if it is a power of two. -/
structure Binary.Proper (b : Binary) : Prop where
  places : b.significand < 2 ^ 53
  narrow : b.narrow = true → b.significand = 2 ^ 52

theorem Binary.proper_of_ofFloat? {x : Float} {b : Binary} (h : Binary.ofFloat? x = some b) :
    b.Proper := by
  unfold Binary.ofFloat? at h
  simp only at h
  split at h
  · cases h
  · split at h
    · cases h
      exact ⟨by dsimp only; omega, by simp⟩
    · cases h
      refine ⟨by dsimp only; omega, fun narrow => ?_⟩
      have hzero := (of_decide_eq_true narrow).1
      dsimp only
      omega

open Float.Model (Format) in
open Float.Model.UnpackedFloat in
/-- **The floats that are not finite** are those without a sign, a significand and an exponent:
all places of their exponent are ones. -/
theorem ofFloat?_eq_none_iff {x : Float} : Binary.ofFloat? x = none ↔ x.isFinite = false := by
  have hnone : Binary.ofFloat? x = none ↔ x.toBits.toNat / 0x10000000000000 % 0x800 = 2047 := by
    unfold Binary.ofFloat?
    simp only
    split
    · simp [*]
    · split <;> simp [*]
  have hexponent : (@unpackExponent .binary64 x.toModel.toBits.toBitVec).toNat =
      x.toBits.toNat / 0x10000000000000 % 0x800 := by
    show BitVec.toNat (BitVec.extractLsb' _ _ _) = _
    rw [BitVec.extractLsb'_toNat, Nat.shiftRight_eq_div_pow]
    rfl
  have hones : @unpackExponent .binary64 x.toModel.toBits.toBitVec = -1 ↔
      x.toBits.toNat / 0x10000000000000 % 0x800 = 2047 := by
    rw [← hexponent, ← BitVec.toNat_inj]
    exact Iff.rfl
  have hfinite : x.isFinite = (unpack .binary64 x.toModel.toBits.toBitVec).isFinite := rfl
  rw [hnone, ← hones, hfinite, unpack]
  simp only
  split
  · rename_i h
    refine iff_of_true h ?_
    split <;> rfl
  · rename_i h
    refine iff_of_false h ?_
    split
    · split <;> exact Bool.noConfusion
    · exact Bool.noConfusion

/-! ## Ratios -/

theorem ten_zpow_pos (e : ℤ) : (0 : ℚ) < 10 ^ e := zpow_pos (by norm_num) e

theorem cast_ten_pow (n : ℕ) : ((Nat.pow 10 n : ℕ) : ℚ) = 10 ^ (n : ℤ) := by
  rw [zpow_natCast]
  exact Nat.cast_pow 10 n

/-- **A ratio times a power of ten.** -/
theorem scale_value (num : ℕ) {den : ℕ} (pos : 0 < den) (e : ℤ) :
    0 < (scale num den e).2 ∧
      ((scale num den e).1 : ℚ) / (scale num den e).2 = (num : ℚ) / den * 10 ^ e := by
  have hden : (den : ℚ) ≠ 0 := Nat.cast_ne_zero.mpr (by omega)
  unfold scale
  split
  · rename_i h
    refine ⟨pos, ?_⟩
    rw [Nat.cast_mul, cast_ten_pow, Int.toNat_of_nonneg h]
    ring
  · rename_i h
    refine ⟨Nat.mul_pos pos (Nat.pow_pos (by decide)), ?_⟩
    rw [Nat.cast_mul, cast_ten_pow, Int.toNat_of_nonneg (by omega), zpow_neg]
    field_simp

/-! ## Digits -/

theorem lt_ten_pow_digitCount (n : ℕ) : n < 10 ^ digitCount n :=
  (Nat.length_toDigits_le_iff (by decide) Nat.length_toDigits_pos).mp (Nat.le_refl _)

theorem ten_pow_le {n : ℕ} (pos : 0 < n) : 10 ^ (digitCount n - 1) ≤ n := by
  by_contra hlt
  have hcount : 0 < digitCount n := Nat.length_toDigits_pos
  by_cases hone : digitCount n = 1
  · rw [hone] at hlt
    omega
  · have hle := (Nat.length_toDigits_le_iff (b := 10) (k := digitCount n - 1) (n := n) (by decide)
      (by omega)).mpr (by omega)
    change digitCount n ≤ digitCount n - 1 at hle
    omega

/-- **The leading digit** of a ratio stands for no more than the ratio. -/
theorem ten_zpow_magnitude_le {num den : ℕ} (hnum : 0 < num) (hden : 0 < den) :
    (10 : ℚ) ^ magnitude num den ≤ (num : ℚ) / den := by
  have hden' : (0 : ℚ) < den := Nat.cast_pos.mpr hden
  have hnum' : (0 : ℚ) < num := Nat.cast_pos.mpr hnum
  rw [le_div_iff₀ hden']
  unfold magnitude
  split
  · rename_i hle
    have hquot : 0 < num / den := Nat.div_pos hle hden
    have hcount : 0 < digitCount (num / den) := Nat.length_toDigits_pos
    have hpow : 10 ^ (digitCount (num / den) - 1) * den ≤ num :=
      (Nat.le_div_iff_mul_le hden).mp (ten_pow_le hquot)
    rw [show (digitCount (num / den) : ℤ) - 1 = ((digitCount (num / den) - 1 : ℕ) : ℤ) by omega,
      zpow_natCast]
    exact_mod_cast hpow
  · simp only
    split
    · rename_i hle
      have hcount : 0 < digitCount (den / num) := Nat.length_toDigits_pos
      rw [show 1 - (digitCount (den / num) : ℤ) = -((digitCount (den / num) - 1 : ℕ) : ℤ) by omega,
        zpow_neg, zpow_natCast, inv_mul_le_iff₀ (by positivity), mul_comm]
      exact_mod_cast hle
    · have hlt : den < num * 10 ^ digitCount (den / num) := by
        rw [mul_comm]
        exact (Nat.div_lt_iff_lt_mul hnum).mp (lt_ten_pow_digitCount _)
      rw [zpow_neg, zpow_natCast, inv_mul_le_iff₀ (by positivity), mul_comm]
      exact_mod_cast hlt.le

/-- Zeros at the end are dropped without a change. -/
theorem value_strip (d : Numeral) (steps : ℕ) (pos : 0 < d.digits) :
    (d.strip steps).value = d.value ∧ 0 < (d.strip steps).digits := by
  induction steps generalizing d with
  | zero => exact ⟨rfl, pos⟩
  | succ steps ih =>
    rw [Numeral.strip]
    split
    · rename_i h
      obtain ⟨hvalue, hpos⟩ := ih ⟨d.digits / 10, d.exponent + 1⟩ (by dsimp only; omega)
      refine ⟨?_, hpos⟩
      have hdigits : (d.digits : ℚ) = (d.digits / 10 : ℕ) * 10 := by
        exact_mod_cast (by omega : d.digits = d.digits / 10 * 10)
      rw [hvalue, Numeral.value, Numeral.value, hdigits, zpow_add_one₀ (by norm_num)]
      ring
    · exact ⟨rfl, pos⟩

/-! ## Intervals -/

namespace Interval

variable {i : Interval} {tie : Tie} {x y z : ℚ} {e : ℤ}

/-- **A rational of an interval.** -/
structure Has (i : Interval) (x : ℚ) : Prop where
  low : (i.low : ℚ) / i.denominator ≤ x
  high : x ≤ (i.high : ℚ) / i.denominator
  within : i.closed = false → (i.low : ℚ) / i.denominator < x ∧ x < (i.high : ℚ) / i.denominator

theorem Has.of_lt (low : (i.low : ℚ) / i.denominator < x)
    (high : x < (i.high : ℚ) / i.denominator) : i.Has x :=
  ⟨low.le, high.le, fun _ => ⟨low, high⟩⟩

/-- An interval has whatever lies between two that it has. -/
theorem Has.between (hx : i.Has x) (hz : i.Has z) (hxy : x ≤ y) (hyz : y ≤ z) : i.Has y where
  low := hx.low.trans hxy
  high := hyz.trans hz.high
  within hopen := ⟨(hx.within hopen).1.trans_le hxy, hyz.trans_lt (hz.within hopen).2⟩

/-- **Whether an interval has a decimal.** -/
theorem holds_iff (pos : 0 < i.denominator) (digits : ℕ) :
    i.holds digits e = true ↔ i.Has (Numeral.value ⟨digits, e⟩) := by
  obtain ⟨hpos, hscale⟩ := scale_value (digits * i.denominator) Nat.one_pos e
  unfold holds
  generalize scale (digits * i.denominator) 1 e = ratio at hpos hscale ⊢
  obtain ⟨num, den⟩ := ratio
  dsimp only at hpos hscale ⊢
  have hden : (0 : ℚ) < den := Nat.cast_pos.mpr hpos
  have hdenominator : (0 : ℚ) < i.denominator := Nat.cast_pos.mpr pos
  have hvalue : Numeral.value ⟨digits, e⟩ = (num : ℚ) / (den * i.denominator) := by
    rw [Numeral.value, ← div_div, hscale, Nat.cast_mul, Nat.cast_one]
    field_simp
  have hbelow (a : ℕ) :
      a * den ≤ num ↔ (a : ℚ) / i.denominator ≤ num / (den * i.denominator) := by
    rw [div_le_div_iff₀ hdenominator (by positivity), ← mul_assoc,
      mul_le_mul_iff_of_pos_right hdenominator]
    exact_mod_cast Iff.rfl
  have habove (a : ℕ) :
      num ≤ a * den ↔ (num : ℚ) / (den * i.denominator) ≤ a / i.denominator := by
    rw [div_le_div_iff₀ (by positivity) hdenominator, ← mul_assoc,
      mul_le_mul_iff_of_pos_right hdenominator]
    exact_mod_cast Iff.rfl
  rw [hvalue]
  cases hclosed : i.closed with
  | true =>
    simp only [if_true, Bool.and_eq_true, decide_eq_true_eq, hbelow, habove]
    exact ⟨fun h => ⟨h.1, h.2, fun hopen => by rw [hclosed] at hopen; cases hopen⟩,
      fun h => ⟨h.low, h.high⟩⟩
  | false =>
    simp only [Bool.false_eq_true, if_false, Bool.and_eq_true, decide_eq_true_eq,
      lt_iff_lt_of_le_iff_le (habove i.low), lt_iff_lt_of_le_iff_le (hbelow i.high)]
    exact ⟨fun h => .of_lt h.1 h.2, fun h => h.within hclosed⟩

/-- A neighbour is a positive decimal of the interval. -/
theorem holds_of_neighbour? {digits : ℕ} (h : i.neighbour? tie e = some digits) :
    0 < digits ∧ i.holds digits e = true := by
  unfold neighbour? at h
  generalize scale i.value i.denominator (-e) = ratio at h
  obtain ⟨num, den⟩ := ratio
  simp only at h
  split at h
  · cases h
  · rename_i hbelow _
    cases h
    simpa using hbelow
  · rename_i _ habove
    cases h
    exact ⟨Nat.succ_pos _, habove⟩
  · rename_i hbelow habove
    rw [Bool.and_eq_true, decide_eq_true_eq] at hbelow
    have hchoice : digits = num / den ∨ digits = num / den + 1 := by
      split at h
      · exact .inl (Option.some.inj h).symm
      · split at h
        · exact .inr (Option.some.inj h).symm
        · cases tie
          · simp only [Option.some.injEq] at h
            split at h
            · exact .inl h.symm
            · exact .inr h.symm
          · exact .inr (Option.some.inj h).symm
    rcases hchoice with rfl | rfl
    · exact hbelow
    · exact ⟨Nat.succ_pos _, habove⟩

/-- **A grid with a point in the interval** has a neighbour there: the interval also has the point
next to its value, on the same side. -/
theorem isSome_neighbour? (pos : 0 < i.denominator)
    (own : i.Has ((i.value : ℚ) / i.denominator)) {point : ℕ} (hpoint : 0 < point)
    (has : i.Has (Numeral.value ⟨point, e⟩)) : (i.neighbour? tie e).isSome = true := by
  obtain ⟨hpos, hscale⟩ := scale_value i.value pos (-e)
  unfold neighbour?
  generalize scale i.value i.denominator (-e) = ratio at hpos hscale ⊢
  obtain ⟨num, den⟩ := ratio
  simp only at hpos hscale ⊢
  have hden : (0 : ℚ) < den := Nat.cast_pos.mpr hpos
  have hten := ten_zpow_pos e
  have hvalue : (i.value : ℚ) / i.denominator = num / den * 10 ^ e := by
    rw [hscale, zpow_neg, inv_mul_cancel_right₀ hten.ne']
  have hbelow : ((num / den : ℕ) : ℚ) ≤ num / den := Nat.cast_div_le
  have habove : (num : ℚ) / den < (num / den + 1 : ℕ) := by
    rw [div_lt_iff₀ hden]
    exact_mod_cast Nat.lt_mul_of_div_lt (Nat.lt_succ_self _) hpos
  have hfound : (decide (0 < num / den) && i.holds (num / den) e) = true ∨
      i.holds (num / den + 1) e = true := by
    by_cases hside : point ≤ num / den
    · left
      rw [Bool.and_eq_true, decide_eq_true_eq, holds_iff pos]
      refine ⟨by omega, has.between own ?_ ?_⟩
      · exact mul_le_mul_of_nonneg_right (by exact_mod_cast hside) hten.le
      · rw [hvalue]
        exact mul_le_mul_of_nonneg_right hbelow hten.le
    · right
      rw [holds_iff pos]
      refine own.between has ?_ ?_
      · rw [hvalue]
        exact mul_le_mul_of_nonneg_right habove.le hten.le
      · have hnext : num / den + 1 ≤ point := by omega
        exact mul_le_mul_of_nonneg_right (by exact_mod_cast hnext) hten.le
  split
  · rename_i hnone hnone'
    rcases hfound with h | h
    · rw [hnone] at h
      cases h
    · rw [hnone'] at h
      cases h
  · rfl
  · rfl
  · split
    · rfl
    · split
      · rfl
      · split <;> rfl

/-- **The first grid** with a neighbour is found if one of those that are tried has any. -/
theorem has_firstGrid (pos : 0 < i.denominator) {steps k : ℕ} (hk : k < steps)
    (fine : (i.neighbour? tie (e - k)).isSome = true) :
    0 < (i.firstGrid tie e steps).digits ∧ i.Has (i.firstGrid tie e steps).value := by
  induction steps generalizing e k with
  | zero => omega
  | succ steps ih =>
    rw [firstGrid]
    cases hneighbour : i.neighbour? tie e with
    | some digits =>
      obtain ⟨hdigits, hholds⟩ := holds_of_neighbour? hneighbour
      exact ⟨hdigits, (holds_iff pos digits).mp hholds⟩
    | none =>
      obtain _ | k := k
      · rw [Nat.cast_zero, sub_zero, hneighbour] at fine
        cases fine
      · refine ih (k := k) (by omega) ?_
        rwa [sub_sub, add_comm, ← Nat.cast_succ]

/-- **A grid that is fine enough** has a point in the interval. -/
theorem exists_point (fine : (10 : ℚ) ^ e < ((i.high : ℚ) - i.low) / i.denominator) :
    ∃ point : ℕ, 0 < point ∧ i.Has (Numeral.value ⟨point, e⟩) := by
  have hten := ten_zpow_pos e
  have hnonneg : 0 ≤ (i.low : ℚ) / i.denominator / 10 ^ e := by positivity
  refine ⟨⌊(i.low : ℚ) / i.denominator / 10 ^ e⌋₊ + 1, Nat.succ_pos _, .of_lt ?_ ?_⟩
  · rw [Numeral.value, ← div_lt_iff₀ hten]
    exact_mod_cast Nat.lt_floor_add_one _
  · have hfloor := Nat.floor_le hnonneg
    rw [le_div_iff₀ hten] at hfloor
    rw [Numeral.value, Nat.cast_succ, add_mul, one_mul]
    rw [sub_div] at fine
    linarith

end Interval

/-! ## The interval of a number -/

section OfBinary

variable {b : Binary}

/-- The value and the ends of the interval of a number. -/
theorem interval_of (pos : 0 < b.significand) :
    0 < (Interval.of b).denominator ∧
      ((Interval.of b).value : ℚ) / (Interval.of b).denominator = b.significand * 2 ^ b.exponent ∧
      ((Interval.of b).low : ℚ) / (Interval.of b).denominator =
        ((b.significand : ℚ) - if b.narrow then 1 / 4 else 1 / 2) * 2 ^ b.exponent ∧
      ((Interval.of b).high : ℚ) / (Interval.of b).denominator =
        ((b.significand : ℚ) + 1 / 2) * 2 ^ b.exponent ∧
      (Interval.of b).closed = decide (b.significand % 2 = 0) := by
  have hlow : (((if b.narrow then 4 * b.significand - 1 else 4 * b.significand - 2 : ℕ)) : ℚ) =
      4 * ((b.significand : ℚ) - if b.narrow then 1 / 4 else 1 / 2) := by
    split
    · rw [Nat.cast_sub (by omega)]
      push_cast
      ring
    · rw [Nat.cast_sub (by omega)]
      push_cast
      ring
  unfold Interval.of
  simp only
  split
  · rename_i h
    have hunit : ((Nat.pow 2 b.exponent.toNat : ℕ) : ℚ) = 2 ^ b.exponent := by
      rw [← Int.toNat_of_nonneg h, zpow_natCast]
      exact Nat.cast_pow 2 _
    refine ⟨Nat.succ_pos 3, ?_, ?_, ?_, rfl⟩
    · push_cast [hunit]
      ring
    · rw [Nat.cast_mul, hlow, hunit]
      push_cast
      ring
    · push_cast [hunit]
      ring
  · rename_i h
    have hunit : ((Nat.pow 2 (-b.exponent).toNat : ℕ) : ℚ) = (2 ^ b.exponent)⁻¹ := by
      rw [← zpow_neg, ← Int.toNat_of_nonneg (show 0 ≤ -b.exponent by omega), zpow_natCast]
      exact Nat.cast_pow 2 _
    have htwo : (2 : ℚ) ^ b.exponent ≠ 0 := zpow_ne_zero _ (by norm_num)
    refine ⟨Nat.mul_pos (by decide) (Nat.pow_pos (by decide)), ?_, ?_, ?_, rfl⟩
    · push_cast [hunit]
      field_simp
    · rw [hlow]
      push_cast [hunit]
      field_simp
    · push_cast [hunit]
      field_simp
      ring

/-- **The interval of a number** has the rationals that it stands for. -/
theorem has_interval_iff (pos : 0 < b.significand) {x : ℚ} :
    (Interval.of b).Has x ↔ b.Rounds x := by
  obtain ⟨-, -, hlow, hhigh, hclosed⟩ := interval_of pos
  have hodd : (Interval.of b).closed = false ↔ b.significand % 2 = 1 := by
    rw [hclosed, decide_eq_false_iff_not]
    omega
  constructor
  · rintro ⟨low, high, within⟩
    rw [hlow] at low within
    rw [hhigh] at high within
    exact ⟨low, high, fun odd => within (hodd.mpr odd)⟩
  · rintro ⟨low, high, within⟩
    rw [← hlow] at low within
    rw [← hhigh] at high within
    exact ⟨low, high, fun hopen => within (hodd.mp hopen)⟩

/-- A number stands for itself. -/
theorem Binary.rounds_self (b : Binary) : b.Rounds (b.significand * 2 ^ b.exponent) := by
  have htwo : (0 : ℚ) < 2 ^ b.exponent := zpow_pos (by norm_num) _
  have hlow : ((b.significand : ℚ) - if b.narrow then 1 / 4 else 1 / 2) * 2 ^ b.exponent <
      b.significand * 2 ^ b.exponent := by
    refine mul_lt_mul_of_pos_right ?_ htwo
    split <;> linarith
  have hhigh : (b.significand : ℚ) * 2 ^ b.exponent <
      ((b.significand : ℚ) + 1 / 2) * 2 ^ b.exponent :=
    mul_lt_mul_of_pos_right (by linarith) htwo
  exact ⟨hlow.le, hhigh.le, fun _ => ⟨hlow, hhigh⟩⟩

/-- **The seventeenth grid** is fine enough. -/
theorem fine_grid (proper : b.Proper) (pos : 0 < b.significand) :
    (10 : ℚ) ^ (magnitude (Interval.of b).value (Interval.of b).denominator - (16 : ℕ)) <
      (((Interval.of b).high : ℚ) - (Interval.of b).low) / (Interval.of b).denominator := by
  obtain ⟨hdenominator, hvalue, hlow, hhigh, -⟩ := interval_of pos
  have htwo : (0 : ℚ) < 2 ^ b.exponent := zpow_pos (by norm_num) _
  have hsignificand : (0 : ℚ) < b.significand := Nat.cast_pos.mpr pos
  have hnum : 0 < (Interval.of b).value := by
    have hpositive : (0 : ℚ) < (Interval.of b).value / (Interval.of b).denominator := by
      rw [hvalue]
      positivity
    rcases Nat.eq_zero_or_pos (Interval.of b).value with hzero | hpos
    · rw [hzero, Nat.cast_zero, zero_div] at hpositive
      exact absurd hpositive (lt_irrefl 0)
    · exact hpos
  have hmagnitude := ten_zpow_magnitude_le hnum hdenominator
  rw [hvalue] at hmagnitude
  have hplaces : (b.significand : ℚ) < 2 ^ 53 := by exact_mod_cast proper.places
  have hwidth : (b.significand : ℚ) / 10 ^ 16 <
      1 / 2 + if b.narrow then 1 / 4 else 1 / 2 := by
    rw [div_lt_iff₀ (by norm_num)]
    split
    · rename_i narrow
      rw [proper.narrow narrow]
      norm_num
    · norm_num at hplaces ⊢
      linarith
  calc (10 : ℚ) ^ (magnitude (Interval.of b).value (Interval.of b).denominator - (16 : ℕ))
      = 10 ^ magnitude (Interval.of b).value (Interval.of b).denominator / 10 ^ 16 := by
        rw [zpow_sub₀ (by norm_num), zpow_natCast]
    _ ≤ b.significand * 2 ^ b.exponent / 10 ^ 16 := by gcongr
    _ = b.significand / 10 ^ 16 * 2 ^ b.exponent := by ring
    _ < (1 / 2 + if b.narrow then 1 / 4 else 1 / 2) * 2 ^ b.exponent :=
        mul_lt_mul_of_pos_right hwidth htwo
    _ = _ := by
        rw [sub_div, hhigh, hlow]
        ring

/-- **The shortest decimal** of a positive number is one that the number stands for. -/
theorem shortest_rounds (tie : Tie) (proper : b.Proper) (pos : 0 < b.significand) :
    0 < (shortest tie b).digits ∧ b.Rounds (shortest tie b).value := by
  obtain ⟨hdenominator, hvalue, -⟩ := interval_of pos
  have own : (Interval.of b).Has ((Interval.of b).value / (Interval.of b).denominator) := by
    rw [has_interval_iff pos, hvalue]
    exact b.rounds_self
  obtain ⟨point, hpoint, has⟩ := Interval.exists_point (fine_grid proper pos)
  obtain ⟨hdigits, hgrid⟩ := Interval.has_firstGrid hdenominator (by decide : 16 < 17)
    (Interval.isSome_neighbour? hdenominator own hpoint has : (Interval.neighbour? _ tie _).isSome)
  obtain ⟨hsame, hstripped⟩ := value_strip _ 17 hdigits
  refine ⟨hstripped, ?_⟩
  rw [shortest, hsame, ← has_interval_iff pos]
  exact hgrid

end OfBinary

end OrderDesk.Decimal
