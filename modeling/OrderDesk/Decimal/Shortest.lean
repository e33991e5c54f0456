/-!
# Shortest decimals

The fewest decimal digits that read back as a given binary number, and among those the digits
nearest to it. A finite positive number is `m · 2 ^ q`; the reals that round to it form an interval
around it, which holds its ends exactly if `m` is even.

## Main definitions

* `Binary.ofFloat?`: a finite float as sign, significand and exponent
* `shortest`: the digits of `m · 2 ^ q`
-/

namespace OrderDesk.Decimal

/-- **A decimal**: `digits · 10 ^ exponent`. -/
structure Numeral where
  digits : Nat
  exponent : Int
  deriving DecidableEq, Repr

/-- A finite number `± significand · 2 ^ exponent`; `narrow` says that the gap below it is half
the gap above. -/
structure Binary where
  negative : Bool
  significand : Nat
  exponent : Int
  narrow : Bool
  deriving DecidableEq, Repr

/-- The sign, significand and exponent of a finite float. -/
def Binary.ofFloat? (x : Float) : Option Binary :=
  let bits := x.toBits.toNat
  let negative := decide (0x8000000000000000 ≤ bits)
  let biased : Nat := bits / 0x10000000000000 % 0x800
  let fraction : Nat := bits % 0x10000000000000
  if biased = 2047 then none
  else if biased = 0 then some ⟨negative, fraction, -1074, false⟩
  else
    some ⟨negative, fraction + 0x10000000000000, (biased : Int) - 1075,
      fraction = 0 ∧ 1 < biased⟩

/-- Which way a tie between two neighbours goes. -/
inductive Tie where
  | toEven
  | up
  deriving DecidableEq, Repr

/-- The number of decimal digits of a number. -/
def digitCount (n : Nat) : Nat :=
  (Nat.toDigits 10 n).length

/-- The exponent of the leading decimal digit of `num / den`. -/
def magnitude (num den : Nat) : Int :=
  if den ≤ num then (digitCount (num / den) : Int) - 1
  else
    let d := digitCount (den / num)
    if den ≤ num * Nat.pow 10 (d - 1) then 1 - (d : Int) else -(d : Int)

/-- A ratio of naturals times a power of ten. -/
def scale (num den : Nat) (exponent : Int) : Nat × Nat :=
  if 0 ≤ exponent then (num * Nat.pow 10 exponent.toNat, den)
  else (num, den * Nat.pow 10 (-exponent).toNat)

/-- **The interval of a number**, over a common denominator: its value and the two ends of the
reals that round to it. -/
structure Interval where
  value : Nat
  low : Nat
  high : Nat
  denominator : Nat
  closed : Bool

/-- The interval of `m · 2 ^ q`. -/
def Interval.of (b : Binary) : Interval :=
  -- in quarters of the last place, so that half of a narrow gap is whole
  let value := 4 * b.significand
  let low := if b.narrow then value - 1 else value - 2
  let high := value + 2
  let closed := b.significand % 2 = 0
  if 0 ≤ b.exponent then
    let unit := Nat.pow 2 b.exponent.toNat
    ⟨value * unit, low * unit, high * unit, 4, closed⟩
  else ⟨value, low, high, 4 * Nat.pow 2 (-b.exponent).toNat, closed⟩

/-- Whether `digits · 10 ^ exponent` lies in the interval. -/
def Interval.holds (i : Interval) (digits : Nat) (exponent : Int) : Bool :=
  let (num, den) := scale (digits * i.denominator) 1 exponent
  let low := i.low * den
  let high := i.high * den
  if i.closed then low ≤ num && num ≤ high else low < num && num < high

/-- The value's neighbour on the grid of multiples of `10 ^ exponent` that lies in the interval;
of two, the nearer one. -/
def Interval.neighbour? (i : Interval) (tie : Tie) (exponent : Int) : Option Nat :=
  let (num, den) := scale i.value i.denominator (-exponent)
  let below := num / den
  let above := below + 1
  -- zero writes no positive number, even if it lies in the interval
  match decide (0 < below) && i.holds below exponent, i.holds above exponent with
  | false, false => none
  | true, false => some below
  | false, true => some above
  | true, true =>
    let twice := 2 * (num % den)
    if twice < den then some below
    else if den < twice then some above
    else match tie with
      | .toEven => some (if below % 2 = 0 then below else above)
      | .up => some above

/-- The first grid with a neighbour in the interval, each grid ten times finer than the one before,
`steps` of them. -/
def Interval.firstGrid (i : Interval) (tie : Tie) (exponent : Int) : Nat → Numeral
  | 0 => ⟨i.value / i.denominator, 0⟩
  | steps + 1 =>
    match i.neighbour? tie exponent with
    | some digits => ⟨digits, exponent⟩
    | none => i.firstGrid tie (exponent - 1) steps

/-- A decimal without the zeros it ends in; `steps` bounds their number. -/
def Numeral.strip (d : Numeral) : Nat → Numeral
  | 0 => d
  | steps + 1 =>
    if d.digits % 10 = 0 ∧ d.digits ≠ 0 then
      Numeral.strip ⟨d.digits / 10, d.exponent + 1⟩ steps
    else d

/-- **The shortest decimal** that reads back as `b`, and the nearest of those; seventeen digits
are always enough. -/
def shortest (tie : Tie) (b : Binary) : Numeral :=
  let i := Interval.of b
  (i.firstGrid tie (magnitude i.value i.denominator) 17).strip 17

end OrderDesk.Decimal
