import OrderDesk.Json.Text

/-!
# Passing over values

A member with an unknown name is passed over. Its value must be well-formed, but it may be nested
to any depth: the open brackets are kept on a stack.

## Main definitions

* `skipValue`: passing over a value
-/

namespace OrderDesk.Json

open Text

/-- An open bracket. -/
inductive Bracket where
  | list
  | object
  deriving DecidableEq, Repr

/-- Passes over the digits of an exponent, behind its mark. -/
def skipExponent (c : Cursor) : Except Error Cursor :=
  let c := if c.looksAt Ascii.minus || c.looksAt Ascii.plus then c.advance else c
  match c.peek? with
  | none => c.fail .invalidNumber
  | some byte =>
    if Ascii.isDigit byte then .ok (c.advanceBy (c.rest.takeWhile Ascii.isDigit).length)
    else c.advance.fail .invalidNumber

/-- Passes over an exponent, if there is one. -/
def skipScaled (c : Cursor) : Except Error Cursor :=
  match c.peek? with
  | some byte => if Ascii.isExponentMark byte then skipExponent c.advance else .ok c
  | none => .ok c

/-- Passes over the places behind a point. -/
def skipFraction (c : Cursor) : Except Error Cursor :=
  let digits := c.rest.takeWhile Ascii.isDigit
  if digits.isEmpty then c.failLooking .invalidNumber
  else skipScaled (c.advanceBy digits.length)

/-- Passes over a number, behind its sign. -/
def skipNumber (c : Cursor) : Except Error Cursor :=
  match c.peek? with
  | none => c.fail .invalidNumber
  | some byte =>
    if !Ascii.isDigit byte then c.advance.fail .invalidNumber
    else
      let digits := c.rest.takeWhile Ascii.isDigit
      if byte == Ascii.zero && 1 < digits.length then c.advance.failLooking .invalidNumber
      else
        let c := c.advanceBy digits.length
        if c.looksAt Ascii.point then skipFraction c.advance else skipScaled c

/-- Passes over a key and its colon, in front of its quote. -/
def skipKey (c : Cursor) : Except Error Cursor :=
  let c := c.skipBlanks
  match c.peek? with
  | none => c.failLooking .eofInObject
  | some byte =>
    if byte == Ascii.quote then
      match skipText c.advance with
      | .error e => .error e
      | .ok c => c.colon
    else c.failLooking .keyMustBeString

/-- **Where the reader is** while it passes over a value: in front of a value or behind one, within
the open brackets, the innermost first. -/
inductive Place where
  | before (opened : List Bracket)
  | behind (opened : List Bracket)
  deriving DecidableEq, Repr

namespace Bracket

/-- The byte that closes a bracket. -/
def closing : Bracket → UInt8
  | list => Ascii.closeBracket
  | object => Ascii.closeBrace

/-- The refusal of a byte that neither parts items nor closes the bracket. -/
def unexpected : Bracket → Cause
  | list => .expectedListCommaOrEnd
  | object => .expectedObjectCommaOrEnd

/-- The refusal of a text that ends within the bracket. -/
def unclosed : Bracket → Cause
  | list => .eofInList
  | object => .eofInObject

/-- In front of the value of the next item: the key of a member is passed over. -/
def item (bracket : Bracket) (outer : List Bracket) (c : Cursor) :
    Except Error (Place × Cursor) :=
  match bracket with
  | list => .ok (.before (list :: outer), c)
  | object =>
    match skipKey c with
    | .error e => .error e
    | .ok c => .ok (.before (object :: outer), c)

/-- Behind an opening bracket, which may be closed at once. -/
def enter (bracket : Bracket) (outer : List Bracket) (c : Cursor) :
    Except Error (Place × Cursor) :=
  let c := c.skipBlanks
  match c.peek? with
  | none => c.failLooking bracket.unclosed
  | some byte =>
    if byte == bracket.closing then .ok (.behind outer, c.advance) else bracket.item outer c

/-- Behind an item: another one, or the end of the bracket. -/
def leave (bracket : Bracket) (outer : List Bracket) (c : Cursor) :
    Except Error (Place × Cursor) :=
  let c := c.skipBlanks
  match c.peek? with
  | none => c.failLooking bracket.unclosed
  | some byte =>
    if byte == Ascii.comma then bracket.item outer c.advance
    else if byte == bracket.closing then .ok (.behind outer, c.advance)
    else c.failLooking bracket.unexpected

end Bracket

/-- Passes over a word, a number or a string that starts with `byte`. -/
def skipScalar (byte : UInt8) (c : Cursor) : Except Error Cursor :=
  if byte == Ascii.lowerN then c.advance.word [0x75, 0x6C, 0x6C]
  else if byte == Ascii.lowerT then c.advance.word [0x72, 0x75, 0x65]
  else if byte == Ascii.lowerF then c.advance.word [0x61, 0x6C, 0x73, 0x65]
  else if byte == Ascii.minus then skipNumber c.advance
  else if Ascii.isDigit byte then skipNumber c
  else if byte == Ascii.quote then skipText c.advance
  else c.failLooking .expectedValue

/-- In front of a value: a bracket is opened, or a scalar is passed over. -/
def skipInto (opened : List Bracket) (c : Cursor) : Except Error (Place × Cursor) :=
  let c := c.skipBlanks
  match c.peek? with
  | none => c.failLooking .eofInValue
  | some byte =>
    if byte == Ascii.openBracket then Bracket.list.enter opened c.advance
    else if byte == Ascii.openBrace then Bracket.object.enter opened c.advance
    else match skipScalar byte c with
      | .error e => .error e
      | .ok c => .ok (.behind opened, c)

/-- Passes on until no bracket is open any more. Every step takes a byte at least, so the bytes at
the start bound their number. -/
def skipFrom : List UInt8 → Place → Cursor → Except Error Cursor
  | _, .behind [], c => .ok c
  | [], .behind (bracket :: _), c => c.skipBlanks.failLooking bracket.unclosed
  | [], .before _, c => c.skipBlanks.failLooking .eofInValue
  | _ :: fuel, .behind (bracket :: outer), c =>
    match bracket.leave outer c with
    | .error e => .error e
    | .ok (place, c) => skipFrom fuel place c
  | _ :: fuel, .before opened, c =>
    match skipInto opened c with
    | .error e => .error e
    | .ok (place, c) => skipFrom fuel place c

/-- **Passes over a value.** -/
def skipValue (c : Cursor) : Except Error Cursor :=
  skipFrom c.rest (.before []) c

end OrderDesk.Json
