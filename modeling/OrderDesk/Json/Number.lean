import OrderDesk.Json.Cursor

/-!
# Numbers in JSON texts

An integer that fits in 64 bits is read exactly. Any other number becomes a float: the digits that
fit in 64 bits make the significand, and one multiplication or division by a power of ten scales
it.

## Main definitions

* `scaled`: a significand times a power of ten
* `readNumber`: the reader
-/

namespace OrderDesk.Json

open Text

/-- The largest significand. -/
def largestSignificand : Nat := 0xFFFFFFFFFFFFFFFF

/-- The largest exponent that is still counted. -/
def largestExponent : Nat := 0x7FFFFFFF

/-- Digits onto `n` as long as the number stays within `limit`, and the digits left over. -/
def gather (limit n : Nat) : List Nat → Nat × List Nat
  | [] => (n, [])
  | d :: ds => if limit < n * 10 + d then (n, d :: ds) else gather limit (n * 10 + d) ds

/-- A power of ten, as the nearest float. -/
def powerOfTen (n : Nat) : Float := Float.ofScientific 1 false n

/-- `x · 10 ^ - exponent`, a division at a time by at most `10 ^ 308`. After three divisions
nothing is left of a 64-bit significand. -/
def shrink (x : Float) (exponent : Nat) : Nat → Float
  | 0 => x
  | steps + 1 =>
    if exponent ≤ 308 then x / powerOfTen exponent
    else if x == 0 then x
    else shrink (x / powerOfTen 308) (exponent - 308) steps

/-- **A significand times a power of ten**, unless it is too large for a float. -/
def scaled (significand : Nat) (exponent : Int) : Option Float :=
  let x := (UInt64.ofNat significand).toFloat
  if exponent < 0 then some (shrink x exponent.natAbs 4)
  else if exponent ≤ 308 then
    let y := x * powerOfTen exponent.natAbs
    if y.isInf then none else some y
  else if x == 0 then some x
  else none

/-- A float with its sign. -/
def signed (negative : Bool) (x : Float) : Float :=
  if negative then -x else x

/-- The float of a significand and an exponent. -/
def finish (negative : Bool) (significand : Nat) (exponent : Int) (c : Cursor) :
    Except Error (Number × Cursor) :=
  match scaled significand exponent with
  | some x => .ok (.float (signed negative x), c)
  | none => c.fail .numberOutOfRange

/-- The values of the digits at the head of a text. -/
def digitRun (c : Cursor) : List Nat :=
  (c.rest.takeWhile Ascii.isDigit).map Ascii.digitValue

/-- The exponent of a number, behind its mark. An exponent that is not counted any more makes the
number zero or too large. -/
def readExponent (negative : Bool) (significand : Nat) (exponent : Int) (c : Cursor) :
    Except Error (Number × Cursor) :=
  let downward := c.looksAt Ascii.minus
  let c := if downward || c.looksAt Ascii.plus then c.advance else c
  match c.peek? with
  | none => c.fail .eofInValue
  | some byte =>
    if !Ascii.isDigit byte then c.advance.fail .invalidNumber
    else
      let digits := digitRun c
      match gather largestExponent 0 digits with
      | (n, []) =>
        finish negative significand (if downward then exponent - n else exponent + n)
          (c.advanceBy digits.length)
      | (_, _ :: left) =>
        -- the digit that no longer fits has been read as well
        if significand ≠ 0 ∧ !downward then
          (c.advanceBy (digits.length - left.length)).fail .numberOutOfRange
        else .ok (.float (signed negative 0), c.advanceBy digits.length)

/-- The exponent of a number, if there is one. -/
def readScaled (negative : Bool) (significand : Nat) (exponent : Int) (c : Cursor) :
    Except Error (Number × Cursor) :=
  match c.peek? with
  | some byte =>
    if Ascii.isExponentMark byte then readExponent negative significand exponent c.advance
    else finish negative significand exponent c
  | none => finish negative significand exponent c

/-- The places behind the point; those that no longer fit are passed over. -/
def readFraction (negative : Bool) (significand : Nat) (exponent : Int) (c : Cursor) :
    Except Error (Number × Cursor) :=
  let digits := digitRun c
  if digits.isEmpty then
    if c.rest.isEmpty then c.failLooking .eofInValue else c.failLooking .invalidNumber
  else
    let (significand, left) := gather largestSignificand significand digits
    readScaled negative significand (exponent - ((digits.length - left.length : Nat) : Int))
      (c.advanceBy digits.length)

/-- An integer of 64 bits; a negative zero and a negative number that does not fit are floats. -/
def integer (negative : Bool) (significand : Nat) : Number :=
  if !negative then .natural significand
  else if significand = 0 ∨ 0x8000000000000000 < significand then
    .float (-(UInt64.ofNat significand).toFloat)
  else .negative significand

/-- **The reader of numbers**, behind the sign. -/
def readUnsigned (negative : Bool) (c : Cursor) : Except Error (Number × Cursor) :=
  match c.peek? with
  | none => c.fail .eofInValue
  | some byte =>
    if !Ascii.isDigit byte then c.advance.fail .invalidNumber
    else
      let digits := digitRun c
      -- a zero in front stands alone
      if byte == Ascii.zero ∧ 1 < digits.length then c.advance.failLooking .invalidNumber
      else
        let (significand, left) := gather largestSignificand 0 digits
        let c := c.advanceBy digits.length
        -- every digit that no longer fits makes the number ten times larger
        let exponent : Int := left.length
        match c.peek? with
        | some byte =>
          if byte == Ascii.point then readFraction negative significand exponent c.advance
          else if Ascii.isExponentMark byte then
            readExponent negative significand exponent c.advance
          else if left.isEmpty then .ok (integer negative significand, c)
          else finish negative significand exponent c
        | none =>
          if left.isEmpty then .ok (integer negative significand, c)
          else finish negative significand exponent c

/-- **The reader of numbers.** -/
def readNumber (c : Cursor) : Except Error (Number × Cursor) :=
  if c.looksAt Ascii.minus then readUnsigned true c.advance else readUnsigned false c

/-- The nearest float of a number. -/
def Number.toFloat : Number → Float
  | .natural n => (UInt64.ofNat n).toFloat
  | .negative n => -(UInt64.ofNat n).toFloat
  | .float x => x

end OrderDesk.Json
