import OrderDesk.Json.Reader
import OrderDesk.Text.Hex

/-!
# JSON values

A value of any kind, its compact text, and the reader of arbitrary values, which allows 127 nested
brackets.

## Main definitions

* `Value`, `Value.render`: values and their compact text
* `readValue`: the reader
-/

namespace OrderDesk.Json

open Text

/-- **A JSON value.** Members stand in the order of the text. -/
inductive Value where
  | null
  | boolean (value : Bool)
  | number (value : Number)
  | text (value : String)
  | list (items : List Value)
  | object (members : List (String × Value))

namespace Value

instance : Inhabited Value := ⟨null⟩

/-- A natural number below `2 ^ 64`. -/
def ofNat (n : Nat) : Value := number (.natural n)

/-- An integer of 64 bits. -/
def ofInt (n : Int) : Value :=
  if 0 ≤ n then number (.natural n.toNat) else number (.negative n.natAbs)

/-- A float. -/
def ofFloat (x : Float) : Value := number (.float x)

/-- A text or `null`. -/
def ofOption {α : Type} (f : α → Value) : Option α → Value
  | some a => f a
  | none => null

/-- One character between the quotes of a string: quotes, backslashes and controls are escaped. -/
def escapedChar (c : Char) : List Char :=
  match c with
  | '"' => ['\\', '"']
  | '\\' => ['\\', '\\']
  | '\n' => ['\\', 'n']
  | '\r' => ['\\', 'r']
  | '\t' => ['\\', 't']
  | _ =>
    if c.toNat = 8 then ['\\', 'b']
    else if c.toNat = 12 then ['\\', 'f']
    else if c.toNat < 32 then
      '\\' :: 'u' :: '0' :: '0' :: Hex.ofByte (UInt8.ofNat c.toNat)
    else [c]

/-- A string between quotes. -/
def quotedChars (text : String) : List Char :=
  '"' :: (text.toList.flatMap escapedChar ++ ['"'])

/-- A number; a float that is not finite is `null`. -/
def numberChars : Number → List Char
  | .natural n => Decimal.digitChars n
  | .negative n => '-' :: Decimal.digitChars n
  | .float x => (Decimal.writtenChars? x).getD ['n', 'u', 'l', 'l']

/-- **The compact text**, without blanks. -/
def renderChars : Value → List Char
  | null => ['n', 'u', 'l', 'l']
  | boolean true => ['t', 'r', 'u', 'e']
  | boolean false => ['f', 'a', 'l', 's', 'e']
  | number n => numberChars n
  | text s => quotedChars s
  | list items => '[' :: (renderItems items ++ [']'])
  | object members => '{' :: (renderMembers members ++ ['}'])
where
  renderItems : List Value → List Char
    | [] => []
    | [v] => renderChars v
    | v :: w :: rest => renderChars v ++ ',' :: renderItems (w :: rest)
  renderMembers : List (String × Value) → List Char
    | [] => []
    | [(k, v)] => quotedChars k ++ ':' :: renderChars v
    | (k, v) :: w :: rest =>
      quotedChars k ++ ':' :: (renderChars v ++ ',' :: renderMembers (w :: rest))

/-- The compact text. -/
def render (v : Value) : String :=
  String.ofList v.renderChars

/-- The member with a name; of several the last one. -/
def member? (v : Value) (name : String) : Option Value :=
  match v with
  | object members => (members.reverse.find? fun m => m.1 == name).map Prod.snd
  | _ => none

end Value

/-- The members of an object onto those already read, newest first, up to the closing brace. -/
def readAnyMembers (read : Cursor → Except Error (Value × Cursor))
    (members : List (String × Value)) :
    List UInt8 → Cursor → Except Error (List (String × Value) × Cursor)
  | [], c => c.skipBlanks.failLooking .eofInObject
  | _ :: fuel, c =>
    match c.objectHasNext members.isEmpty with
    | .error e => .error e
    | .ok (false, c) => .ok (members.reverse, c)
    | .ok (true, c) =>
      match readText c.advance with
      | .error e => .error e
      | .ok (name, c) =>
        match c.colon with
        | .error e => .error e
        | .ok c =>
          match read c with
          | .error e => .error e
          | .ok (v, c) => readAnyMembers read ((name, v) :: members) fuel c

/-- The value of a word whose first letter is next. -/
def readWord (v : Value) (letters : List UInt8) (c : Cursor) : Except Error (Value × Cursor) :=
  match c.advance.word letters with
  | .ok c => .ok (v, c)
  | .error e => .error e

/-- A value that is no bracket and starts with `byte`. -/
def readScalar (byte : UInt8) (c : Cursor) : Except Error (Value × Cursor) :=
  if byte == Ascii.lowerN then readWord .null [0x75, 0x6C, 0x6C] c
  else if byte == Ascii.lowerT then readWord (.boolean true) [0x72, 0x75, 0x65] c
  else if byte == Ascii.lowerF then readWord (.boolean false) [0x61, 0x6C, 0x73, 0x65] c
  else if byte == Ascii.minus || Ascii.isDigit byte then
    match readNumber c with
    | .ok (n, c) => .ok (.number n, c)
    | .error e => .error e
  else if byte == Ascii.quote then
    match readText c.advance with
    | .ok (s, c) => .ok (.text s, c)
    | .error e => .error e
  else c.failLooking .expectedValue

/-- A value with at most `depth` nested brackets. -/
def readNested : Nat → Cursor → Except Error (Value × Cursor)
  | 0, c =>
    let c := c.skipBlanks
    match c.peek? with
    | none => c.failLooking .eofInValue
    | some byte =>
      if byte == Ascii.openBracket || byte == Ascii.openBrace then c.failLooking .recursionLimit
      else readScalar byte c
  | depth + 1, c =>
    let c := c.skipBlanks
    match c.peek? with
    | none => c.failLooking .eofInValue
    | some byte =>
      if byte == Ascii.openBracket then
        match readItems (readNested depth) [] 0 c.advance.rest c.advance with
        | .error e => .error e
        | .ok (items, c) => Cursor.settle (.ok (.list items)) c.closeList
      else if byte == Ascii.openBrace then
        match readAnyMembers (readNested depth) [] c.advance.rest c.advance with
        | .error e => .error e
        | .ok (members, c) => Cursor.settle (.ok (.object members)) c.closeObject
      else readScalar byte c

/-- **The reader of arbitrary values.** -/
def readValue (c : Cursor) : Except Error (Value × Cursor) :=
  readNested 127 c

end OrderDesk.Json
