import Mathlib

/-!
# Floats that are at least zero

A float is below zero, or at least zero, or no number. Sums of floats that are at least zero are so
themselves, however they are rounded, and a sum with something that is no number is none.

## Main definitions

* `AtLeastZero`: the parts of a float that is at least zero

## Main results

* `zero_le_iff`, `not_lt_zero_iff`: floats over zero by their parts
* `zero_le_add`, `isNaN_add_left`, `isNaN_add_right`: sums of two
* `negative_zero_add`: the negative zero is neutral
-/

namespace OrderDesk.Floating

open Float.Model (Format UnpackedFloat)
open Float.Model.UnpackedFloat

/-- **At least zero**: something positive, or a zero of either sign. -/
inductive AtLeastZero : UnpackedFloat → Prop
  | infinity : AtLeastZero (.infinity .positive)
  | zero (s : Sign) : AtLeastZero (.zero s)
  | finite (m : Nat) (e : Int) (pos : 0 < m) : AtLeastZero (.finite .positive m e pos)

namespace AtLeastZero

/-! ## Packing -/

theorem unpack_packComponents {e : BitVec Format.binary64.exponentBits}
    {m : BitVec Format.binary64.mantissaBitsWithoutImplicit} (h : e = -1#_ → m = 0#_) :
    AtLeastZero (unpack .binary64 (packComponents .binary64 .positive e m)) := by
  rw [unpack]
  simp only [unpackMantissa_packComponents, unpackExponent_packComponents,
    unpackSign_packComponents, Sign.ofBitVec_toBitVec]
  split
  case isTrue hones =>
    rw [if_pos (h hones)]
    exact .infinity
  case isFalse =>
    split
    case isTrue =>
      split
      · exact .zero _
      · exact .finite _ _ _
    case isFalse => exact .finite _ _ _

/-- Packing keeps what is at least zero. -/
theorem unpack_pack {u : UnpackedFloat} (h : AtLeastZero u) :
    AtLeastZero (unpack .binary64 (pack .binary64 u)) := by
  cases h with
  | infinity => exact unpack_packComponents fun _ => rfl
  | zero s => cases s <;> exact .zero _
  | finite m e pos =>
    rw [pack]
    split
    case isTrue => exact unpack_packComponents fun _ => rfl
    case isFalse hroom =>
      split
      case isTrue =>
        refine unpack_packComponents fun hones => ?_
        have hnat : _ % 2 ^ 11 = 2 ^ 11 - 1 := congrArg BitVec.toNat hones
        have hlt : ¬ 2 ^ 11 ≤ _ + 1 := hroom
        exact absurd hnat (by omega)
      case isFalse => exact unpack_packComponents fun hones => absurd hones (by decide)

/-! ## Sums -/

/-- Rounding keeps a positive sign. -/
theorem round (m : Nat) (e : Int) :
    AtLeastZero (UnpackedFloat.round .binary64 .positive m e) := by
  simp only [UnpackedFloat.round, roundWithAccuracy]
  split
  · exact .zero _
  · exact .finite _ _ _

theorem normalize {m : Int} (h : 0 ≤ m) (e : Int) (s : Sign) :
    AtLeastZero (UnpackedFloat.normalize .binary64 m e s) := by
  rw [UnpackedFloat.normalize]
  split
  case h_1 hlt => exact absurd (Int.compare_eq_lt.mp hlt) (by omega)
  case h_2 => exact .zero _
  case h_3 => exact round _ _

/-- Adding keeps what is at least zero. -/
theorem add {u v : UnpackedFloat} (hu : AtLeastZero u) (hv : AtLeastZero v) :
    AtLeastZero (UnpackedFloat.add .binary64 u v) := by
  cases hu with
  | infinity => cases hv <;> exact .infinity
  | zero s =>
    cases hv with
    | infinity => exact .infinity
    | zero t => cases s <;> cases t <;> exact .zero _
    | finite => exact .finite _ _ _
  | finite m e pos =>
    cases hv with
    | infinity => exact .infinity
    | zero => exact .finite _ _ _
    | finite n f pos' =>
      exact normalize (Int.add_nonneg (Int.natCast_nonneg _) (Int.natCast_nonneg _)) _ _

end AtLeastZero

/-! ## Comparisons -/

theorem zero_le_unpacked_iff {u : UnpackedFloat} :
    UnpackedFloat.le (.zero .positive) u = true ↔ AtLeastZero u := by
  cases u with
  | infinity s =>
    cases s
    case negative => exact iff_of_false Bool.false_ne_true nofun
    case positive => exact iff_of_true rfl .infinity
  | notANumber => exact iff_of_false Bool.false_ne_true nofun
  | zero s => exact iff_of_true rfl (.zero s)
  | finite s m e pos =>
    cases s
    case negative => exact iff_of_false Bool.false_ne_true nofun
    case positive => exact iff_of_true rfl (.finite m e pos)

theorem lt_zero_unpacked_iff {u : UnpackedFloat} :
    UnpackedFloat.lt u (.zero .positive) = true ↔ ¬ AtLeastZero u ∧ u.isNaN = false := by
  cases u with
  | infinity s =>
    cases s
    case negative => exact iff_of_true rfl ⟨nofun, rfl⟩
    case positive => exact iff_of_false Bool.false_ne_true fun h => h.1 .infinity
  | notANumber => exact iff_of_false Bool.false_ne_true fun h => Bool.noConfusion h.2
  | zero s => exact iff_of_false Bool.false_ne_true fun h => h.1 (.zero s)
  | finite s m e pos =>
    cases s
    case negative => exact iff_of_true rfl ⟨nofun, rfl⟩
    case positive => exact iff_of_false Bool.false_ne_true fun h => h.1 (.finite m e pos)

/-! ## Floats -/

variable {x y : Float}

theorem unpack_add (x y : Float) :
    (x + y).toModel.unpack =
      unpack .binary64 (pack .binary64 (add .binary64 x.toModel.unpack y.toModel.unpack)) :=
  rfl

theorem isNaN_iff_unpack : x.isNaN = true ↔ x.toModel.unpack = .notANumber :=
  UnpackedFloat.isNaN_iff

theorem zero_le_iff : 0 ≤ x ↔ AtLeastZero x.toModel.unpack :=
  decide_eq_true_iff.trans zero_le_unpacked_iff

/-- **Below zero, at least zero, or no number.** -/
theorem not_lt_zero_iff : ¬ x < 0 ↔ 0 ≤ x ∨ x.isNaN = true := by
  have hlt : x < 0 ↔ ¬ AtLeastZero x.toModel.unpack ∧ x.isNaN = false :=
    decide_eq_true_iff.trans lt_zero_unpacked_iff
  rw [hlt, zero_le_iff, not_and_or, not_not, Bool.not_eq_false]

/-- What is no number is not at least zero. -/
theorem not_zero_le_of_isNaN (h : x.isNaN = true) : ¬ 0 ≤ x := by
  rw [zero_le_iff, isNaN_iff_unpack.mp h]
  nofun

/-- **A sum of two that are at least zero** is at least zero. -/
theorem zero_le_add (hx : 0 ≤ x) (hy : 0 ≤ y) : 0 ≤ x + y := by
  rw [zero_le_iff] at hx hy ⊢
  rw [unpack_add]
  exact (hx.add hy).unpack_pack

/-- **A sum with something that is no number** is none. -/
theorem isNaN_add_left (h : x.isNaN = true) (y : Float) : (x + y).isNaN = true := by
  rw [isNaN_iff_unpack] at h ⊢
  rw [unpack_add, h]
  exact unpack_packedNaN

theorem isNaN_add_right (h : y.isNaN = true) (x : Float) : (x + y).isNaN = true := by
  rw [isNaN_iff_unpack] at h ⊢
  rw [unpack_add, h]
  cases x.toModel.unpack <;> exact unpack_packedNaN

/-- **The negative zero is neutral.** -/
theorem negative_zero_add (x : Float) : -0.0 + x = x := by
  have hsum : -0.0 + x =
      .ofModel (.pack (add .binary64 (.zero .negative) x.toModel.unpack)) := rfl
  have hadd : add .binary64 (.zero .negative) x.toModel.unpack = x.toModel.unpack := by
    cases x.toModel.unpack with
    | zero s => cases s <;> rfl
    | _ => rfl
  rw [hsum, hadd]
  exact Float.ofBits_toBits x

end OrderDesk.Floating
