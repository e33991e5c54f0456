/-!
# Hexadecimal digits

One digit as a number below sixteen and as a character, and bytes as pairs of lower-case digits.
-/

namespace OrderDesk.Text.Hex

/-- The lower-case digit of a number below sixteen. -/
def digit (n : Fin 16) : Char :=
  if n.val < 10 then Char.ofNat (48 + n.val) else Char.ofNat (87 + n.val)

/-- The upper-case digit of a number below sixteen. -/
def upperDigit (n : Fin 16) : Char :=
  if n.val < 10 then Char.ofNat (48 + n.val) else Char.ofNat (55 + n.val)

/-- **The value of a digit**, in either case. -/
def value? (c : Char) : Option (Fin 16) :=
  let n := c.toNat
  if 48 ≤ n ∧ n ≤ 57 then some (Fin.ofNat 16 (n - 48))
  else if 97 ≤ n ∧ n ≤ 102 then some (Fin.ofNat 16 (n - 87))
  else if 65 ≤ n ∧ n ≤ 70 then some (Fin.ofNat 16 (n - 55))
  else none

/-- Whether a character is a hexadecimal digit. -/
def isDigit (c : Char) : Bool :=
  (value? c).isSome

theorem value?_digit : ∀ n : Fin 16, value? (digit n) = some n := by decide

theorem value?_upperDigit : ∀ n : Fin 16, value? (upperDigit n) = some n := by decide

/-- The two digits of a byte. -/
def ofByte (byte : UInt8) : List Char :=
  [digit (Fin.ofNat 16 (byte.toNat / 16)), digit (Fin.ofNat 16 byte.toNat)]

/-- Bytes written as pairs of lower-case digits. -/
def ofBytes (bytes : List UInt8) : String :=
  String.ofList (bytes.flatMap ofByte)

/-- The bytes behind those already read, newest first. -/
def bytesOnto (read : List UInt8) : List Char → Option (List UInt8)
  | [] => some read.reverse
  | [_] => none
  | a :: b :: rest =>
    match value? a, value? b with
    | some x, some y => bytesOnto (UInt8.ofNat (x.val * 16 + y.val) :: read) rest
    | _, _ => none

/-- The bytes that pairs of digits write. -/
def toBytes? (text : String) : Option (List UInt8) :=
  bytesOnto [] text.toList

/-- The lower-case hexadecimal numeral of a number, without leading zeros. -/
def ofNat (n : Nat) : String :=
  String.ofList (Nat.toDigits 16 n)

end OrderDesk.Text.Hex
