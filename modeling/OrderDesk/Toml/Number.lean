import OrderDesk.Text.Hex

/-!
# Numbers

Integers of 64 bits in four bases, and floats. Underscores may stand between digits.

## Main definitions

* `integer?`: a word as an integer
* `float?`: a word as a float
-/

namespace OrderDesk.Toml

open OrderDesk.Text

/-- Whether a character is a decimal digit. -/
def isDigit (c : Char) : Bool := '0' ≤ c && c ≤ '9'

/-- **The digits of a word**, without the underscores between them. -/
def digits? (isDigit : Char → Bool) : List Char → Option (List Char)
  | [] => none
  | [c] => if isDigit c then some [c] else none
  | c :: '_' :: rest => if isDigit c then (digits? isDigit rest).map (c :: ·) else none
  | c :: d :: rest => if isDigit c then (digits? isDigit (d :: rest)).map (c :: ·) else none

/-- The number of a row of digits. -/
def ofDigits (base : Nat) (digits : List Char) : Nat :=
  digits.foldl (fun n c => n * base + ((Hex.value? c).map Fin.val).getD 0) 0

/-- The digits of a decimal numeral, which has no zero in front. -/
def decimalDigits? (word : List Char) : Option (List Char) :=
  match digits? isDigit word with
  | some ('0' :: _ :: _) => none
  | digits => digits

/-- A word without its sign, and whether the sign is a minus. -/
def unsigned : List Char → Bool × List Char
  | '-' :: rest => (true, rest)
  | '+' :: rest => (false, rest)
  | word => (false, word)

/-- An integer that fits in 64 bits. -/
def fitting (n : Int) : Option Int :=
  if -0x8000000000000000 ≤ n ∧ n < 0x8000000000000000 then some n else none

/-- **A word as an integer.** Only a decimal one may have a sign. -/
def integer? (word : List Char) : Option Int :=
  let based (base : Nat) (isDigit : Char → Bool) (digits : List Char) : Option Int :=
    (digits? isDigit digits).bind fun digits => fitting (ofDigits base digits)
  match word with
  | '0' :: 'x' :: digits => based 16 Hex.isDigit digits
  | '0' :: 'o' :: digits => based 8 (fun c => '0' ≤ c && c ≤ '7') digits
  | '0' :: 'b' :: digits => based 2 (fun c => c == '0' || c == '1') digits
  | _ =>
    let (negative, word) := unsigned word
    (decimalDigits? word).bind fun digits =>
      let n : Int := ofDigits 10 digits
      fitting (if negative then -n else n)

/-- Whether a character belongs to a row of digits. -/
def isRowChar (c : Char) : Bool := isDigit c || c == '_'

/-- The places behind a point, if there is one, and what follows them. -/
def fraction? : List Char → Option (List Char × List Char)
  | '.' :: rest =>
    (digits? isDigit (rest.takeWhile isRowChar)).map fun digits =>
      (digits, rest.dropWhile isRowChar)
  | word => some ([], word)

/-- The exponent that ends a word, if there is one. -/
def exponent? : List Char → Option Int
  | [] => some 0
  | c :: rest =>
    if c == 'e' || c == 'E' then
      let (negative, rest) := unsigned rest
      (digits? isDigit rest).map fun digits =>
        if negative then -(ofDigits 10 digits : Int) else ofDigits 10 digits
    else none

/-- The number of some digits times a power of ten, unless it is too large for a float. Beyond four
hundred places nothing is left of a number or it is too large. -/
def floatOf (digits : List Char) (exponent : Int) : Option Float :=
  let n := ofDigits 10 digits
  if n = 0 ∨ exponent + digits.length < -400 then some 0
  else if 400 < exponent then none
  else
    let x := Float.ofScientific n (decide (exponent < 0)) exponent.natAbs
    if x.isInf then none else some x

/-- **A word as a float**: with a point or an exponent, or one of the words for what is not finite.
-/
def float? (word : List Char) : Option Float :=
  let (negative, word) := unsigned word
  let magnitude : Option Float :=
    if word = ['i', 'n', 'f'] then some (1 / 0)
    else if word = ['n', 'a', 'n'] then some (0 / 0)
    else
      match decimalDigits? (word.takeWhile isRowChar) with
      | none => none
      | some whole =>
        match word.dropWhile isRowChar with
        | [] => none
        | rest =>
          match fraction? rest with
          | none => none
          | some (places, rest) =>
            match exponent? rest with
            | none => none
            | some e => floatOf (whole ++ places) (e - places.length)
  magnitude.map fun x => if negative then -x else x

end OrderDesk.Toml
