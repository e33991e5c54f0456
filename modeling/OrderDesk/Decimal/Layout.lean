import OrderDesk.Decimal.Shortest

/-!
# Written numbers

Ways to write a float, all by its shortest digits: the one of JSON texts, which turns to an exponent
for very large and very small numbers, and the plain ones, which never do.

## Main definitions

* `written`: at least one place after the point, an exponent outside `10⁻⁵ ≤ |x| < 10¹⁶`
* `plain`: no exponent, no point for whole numbers
* `pointed`: no exponent, a point always
-/

namespace OrderDesk.Decimal

/-- The digits of a number, as characters. -/
def digitChars (n : Nat) : List Char :=
  Nat.toDigits 10 n

/-- `digits · 10 ^ exponent` in positional form; whole numbers end in `whole`. -/
def positional (d : Numeral) (whole : List Char) : List Char :=
  let digits := digitChars d.digits
  if 0 ≤ d.exponent then digits ++ List.replicate d.exponent.toNat '0' ++ whole
  else
    let places := (-d.exponent).toNat
    if places < digits.length then
      digits.take (digits.length - places) ++ '.' :: digits.drop (digits.length - places)
    else '0' :: '.' :: (List.replicate (places - digits.length) '0' ++ digits)

/-- A power of ten as `e+16` or `e-6`. -/
def exponentChars (e : Int) : List Char :=
  'e' :: (if e < 0 then '-' else '+') :: digitChars e.natAbs

/-- One digit, the others behind a point, and the power of ten. -/
def scientific (d : Numeral) : List Char :=
  let digits := digitChars d.digits
  let power := exponentChars (d.exponent + digits.length - 1)
  match digits with
  | [] => power
  | [a] => a :: power
  | a :: rest => a :: '.' :: (rest ++ power)

/-- A finite number with at least one place after the point; outside `10⁻⁵ ≤ |x| < 10¹⁶` by a
power of ten. -/
def writtenBinary (b : Binary) : List Char :=
  let digits :=
    if b.significand = 0 then ['0', '.', '0']
    else
      let d := shortest .toEven b
      let lead := d.exponent + digitCount d.digits - 1
      if -5 ≤ lead ∧ lead < 16 then positional d ['.', '0'] else scientific d
  if b.negative then '-' :: digits else digits

/-- The text of a number that is not finite. -/
def infiniteText (x : Float) : String :=
  if x.isNaN then "NaN" else if x < 0 then "-inf" else "inf"

/-- The characters of a finite float in a JSON text. -/
def writtenChars? (x : Float) : Option (List Char) :=
  (Binary.ofFloat? x).map writtenBinary

/-- **A float in a text of data**: shortest digits, a point always, a power of ten for the very
large and the very small. -/
def written (x : Float) : String :=
  match writtenChars? x with
  | some cs => String.ofList cs
  | none => infiniteText x

/-- **A float in plain text**: shortest digits, never a power of ten, no point in a whole
number. -/
def plain (x : Float) : String :=
  match Binary.ofFloat? x with
  | none => infiniteText x
  | some b =>
    let digits := if b.significand = 0 then ['0'] else positional (shortest .up b) []
    String.ofList (if b.negative then '-' :: digits else digits)

/-- **A float in plain text with a point**, also in a whole number. -/
def pointed (x : Float) : String :=
  match Binary.ofFloat? x with
  | none => infiniteText x
  | some b =>
    let whole := ['.', '0']
    let digits := if b.significand = 0 then '0' :: whole else positional (shortest .up b) whole
    String.ofList (if b.negative then '-' :: digits else digits)

end OrderDesk.Decimal
