import OrderDesk.Json.Error
import OrderDesk.Text.Ascii

/-!
# The place of the reader

A cursor holds the bytes that are still to be read and where they start. Every refusal is placed
either where the cursor stands or, when the reader looks at a byte it cannot accept, behind that
byte.

## Main definitions

* `Cursor`, `Cursor.advance`, `Cursor.skipBlanks`
* `Cursor.fail`, `Cursor.failLooking`: refusals here and at the next byte
* `Cursor.listHasNext`, `Cursor.objectHasNext`, `Cursor.closeList`, `Cursor.closeObject`: the marks
  between the items of a list and the members of an object
-/

namespace OrderDesk.Json

open Text

/-- **A place in a text**: the bytes to be read, the line, and the bytes of the line read so
far. -/
structure Cursor where
  rest : List UInt8
  line : Nat
  column : Nat
  deriving DecidableEq, Repr

namespace Cursor

/-- The start of a text. -/
def start (bytes : List UInt8) : Cursor := ⟨bytes, 1, 0⟩

/-- The place behind `byte`, with `rest` to be read. -/
def past (c : Cursor) (byte : UInt8) (rest : List UInt8) : Cursor :=
  if byte == Ascii.newline then ⟨rest, c.line + 1, 0⟩ else ⟨rest, c.line, c.column + 1⟩

/-- The place behind the next byte. -/
def advance (c : Cursor) : Cursor :=
  match c.rest with
  | [] => c
  | byte :: rest => c.past byte rest

/-- The place behind the next `n` bytes, none of which ends a line. -/
def advanceBy (c : Cursor) (n : Nat) : Cursor :=
  ⟨c.rest.drop n, c.line, c.column + n⟩

/-- The next byte. -/
def peek? (c : Cursor) : Option UInt8 :=
  c.rest.head?

/-- Whether the next byte is `byte`. -/
def looksAt (c : Cursor) (byte : UInt8) : Bool :=
  c.rest.head? == some byte

/-- A refusal where the cursor stands. -/
def errorHere (c : Cursor) (cause : Cause) : Error :=
  ⟨cause, c.line, c.column, []⟩

/-- A refusal where the cursor stands. -/
def fail {α : Type} (c : Cursor) (cause : Cause) : Except Error α :=
  .error (c.errorHere cause)

/-- A refusal of the next byte. -/
def failLooking {α : Type} (c : Cursor) (cause : Cause) : Except Error α :=
  c.advance.fail cause

/-- Whether a byte may stand between tokens. -/
def isBlank (byte : UInt8) : Bool :=
  byte == Ascii.space || byte == Ascii.newline || byte == Ascii.tab
    || byte == Ascii.carriageReturn

/-- The place behind the blanks at the head of `rest`. -/
def skipBlanksFrom (line column : Nat) : List UInt8 → Cursor
  | [] => ⟨[], line, column⟩
  | byte :: rest =>
    if byte == Ascii.newline then skipBlanksFrom (line + 1) 0 rest
    else if isBlank byte then skipBlanksFrom line (column + 1) rest
    else ⟨byte :: rest, line, column⟩

/-- The place behind the blanks. -/
def skipBlanks (c : Cursor) : Cursor :=
  skipBlanksFrom c.line c.column c.rest

/-- **Whether a list goes on**: passes over the comma in front of every item but the first, and
stops in front of the closing bracket. -/
def listHasNext (c : Cursor) (first : Bool) : Except Error (Bool × Cursor) :=
  let c := c.skipBlanks
  match c.peek? with
  | none => c.failLooking .eofInList
  | some byte =>
    if byte == Ascii.closeBracket then .ok (false, c)
    else if first then .ok (true, c)
    else if byte == Ascii.comma then
      let c := c.advance.skipBlanks
      match c.peek? with
      | none => c.failLooking .eofInValue
      | some byte =>
        if byte == Ascii.closeBracket then c.failLooking .trailingComma else .ok (true, c)
    else c.failLooking .expectedListCommaOrEnd

/-- **Whether an object goes on**: passes over the comma in front of every member but the first,
and stops in front of the quote of a key or of the closing brace. -/
def objectHasNext (c : Cursor) (first : Bool) : Except Error (Bool × Cursor) :=
  let c := c.skipBlanks
  match c.peek? with
  | none => c.failLooking .eofInObject
  | some byte =>
    if byte == Ascii.closeBrace then .ok (false, c)
    else if first then
      if byte == Ascii.quote then .ok (true, c) else c.failLooking .keyMustBeString
    else if byte == Ascii.comma then
      let c := c.advance.skipBlanks
      match c.peek? with
      | none => c.failLooking .eofInValue
      | some byte =>
        if byte == Ascii.quote then .ok (true, c)
        else if byte == Ascii.closeBrace then c.failLooking .trailingComma
        else c.failLooking .keyMustBeString
    else c.failLooking .expectedObjectCommaOrEnd

/-- Passes over the colon behind a key. -/
def colon (c : Cursor) : Except Error Cursor :=
  let c := c.skipBlanks
  match c.peek? with
  | none => c.failLooking .eofInObject
  | some byte => if byte == Ascii.colon then .ok c.advance else c.failLooking .expectedColon

/-- The end of a list, and where the cursor stands after looking for it. -/
def closeList (c : Cursor) : Except Error Unit × Cursor :=
  let c := c.skipBlanks
  match c.peek? with
  | none => (c.failLooking .eofInList, c)
  | some byte =>
    if byte == Ascii.closeBracket then (.ok (), c.advance)
    else if byte == Ascii.comma then
      let c := c.advance.skipBlanks
      if c.looksAt Ascii.closeBracket then (c.failLooking .trailingComma, c)
      else (c.failLooking .trailingCharacters, c)
    else (c.failLooking .trailingCharacters, c)

/-- The end of an object, and where the cursor stands after looking for it. -/
def closeObject (c : Cursor) : Except Error Unit × Cursor :=
  let c := c.skipBlanks
  match c.peek? with
  | none => (c.failLooking .eofInObject, c)
  | some byte =>
    if byte == Ascii.closeBrace then (.ok (), c.advance)
    else if byte == Ascii.comma then (c.failLooking .trailingComma, c)
    else (c.failLooking .trailingCharacters, c)

/-- **A container is closed** before its outcome counts: a reason without a place is placed where
the cursor then stands. -/
def settle {α : Type} (outcome : Except Cause α) (closing : Except Error Unit × Cursor) :
    Except Error (α × Cursor) :=
  match outcome, closing with
  | .error cause, (_, c) => c.fail cause
  | .ok _, (.error e, _) => .error e
  | .ok a, (.ok _, c) => .ok (a, c)

/-- The letters of a word whose first letter has been read. -/
def word (c : Cursor) : List UInt8 → Except Error Cursor
  | [] => .ok c
  | letter :: letters =>
    match c.peek? with
    | none => c.fail .eofInValue
    | some byte =>
      if byte == letter then c.advance.word letters else c.advance.fail .expectedIdent

end Cursor

end OrderDesk.Json
