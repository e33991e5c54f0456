import OrderDesk.Instant.Reader
import OrderDesk.Json.Number
import OrderDesk.Json.Text
import OrderDesk.Uuid

/-!
# Readers of single values

Each reader takes the cursor in front of a value, blanks included, and gives the value with the
cursor behind it. A value of another kind is read, if it is no bracket, and then refused by name;
a bracket is refused where it stands.

## Main definitions

* `readString`, `readInt64`, `readDouble`, `readUuid`, `readInstant`: scalars
* `readOption`, `readList`, `readVariant`: optional values, lists and names of a finite kind
* `readDocument`: a value that is a whole text
-/

namespace OrderDesk.Json

open Text

/-- Reads a value that is not of the expected kind, and refuses it. -/
def mismatch (expected : String) (byte : UInt8) (c : Cursor) : Error :=
  let refuse (found : Found) (c : Cursor) : Error := c.errorHere (.invalidType found expected)
  let afterWord (found : Found) (letters : List UInt8) : Error :=
    match c.advance.word letters with
    | .ok c => refuse found c
    | .error e => e
  if byte == Ascii.lowerN then afterWord .null [0x75, 0x6C, 0x6C]
  else if byte == Ascii.lowerT then afterWord (.boolean true) [0x72, 0x75, 0x65]
  else if byte == Ascii.lowerF then afterWord (.boolean false) [0x61, 0x6C, 0x73, 0x65]
  else if byte == Ascii.minus || Ascii.isDigit byte then
    match readNumber c with
    | .ok (n, c) => refuse (.number n) c
    | .error e => e
  else if byte == Ascii.quote then
    match readText c.advance with
    | .ok (text, c) => refuse (.text text) c
    | .error e => e
  else if byte == Ascii.openBracket then refuse .sequence c
  else if byte == Ascii.openBrace then refuse .map c
  else c.advance.errorHere .expectedValue

/-- **A string.** -/
def readStringAs (expected : String) (c : Cursor) : Except Error (String × Cursor) :=
  let c := c.skipBlanks
  match c.peek? with
  | none => c.failLooking .eofInValue
  | some byte =>
    if byte == Ascii.quote then readText c.advance else .error (mismatch expected byte c)

/-- A string. -/
def readString (c : Cursor) : Except Error (String × Cursor) :=
  readStringAs "a string" c

/-- A number, whatever its size. -/
def readNumberAs (expected : String) (c : Cursor) : Except Error (Number × Cursor) :=
  let c := c.skipBlanks
  match c.peek? with
  | none => c.failLooking .eofInValue
  | some byte =>
    if byte == Ascii.minus || Ascii.isDigit byte then readNumber c
    else .error (mismatch expected byte c)

/-- **A float**, as the nearest to any number. -/
def readDouble (c : Cursor) : Except Error (Float × Cursor) := do
  let (n, c) ← readNumberAs "f64" c
  .ok (n.toFloat, c)

/-- **A signed integer of 64 bits.** -/
def readInt64 (c : Cursor) : Except Error (Int × Cursor) := do
  let (n, c) ← readNumberAs "i64" c
  match n with
  | .natural size =>
    if size < 0x8000000000000000 then .ok (size, c) else c.fail (.invalidValue (.number n) "i64")
  | .negative size => .ok (-(size : Int), c)
  | .float _ => c.fail (.invalidType (.number n) "i64")

/-- **An identifier.** -/
def readUuid (c : Cursor) : Except Error (Uuid × Cursor) := do
  let (text, c) ← readStringAs "a formatted UUID string" c
  match Uuid.parse text with
  | .ok id => .ok (id, c)
  | .error e => c.fail (.malformed ("UUID parsing failed: " ++ e.message))

/-- **An instant.** -/
def readInstant (c : Cursor) : Except Error (Instant × Cursor) := do
  let (text, c) ← readStringAs "an RFC 3339 formatted date and time string" c
  match Instant.read text with
  | .ok t => .ok (t, c)
  | .error e => c.fail (.malformed e.message)

/-- **A value or `null`.** -/
def readOption {α : Type} (read : Cursor → Except Error (α × Cursor)) (c : Cursor) :
    Except Error (Option α × Cursor) :=
  let c := c.skipBlanks
  if c.looksAt Ascii.lowerN then
    match c.advance.word [0x75, 0x6C, 0x6C] with
    | .ok c => .ok (none, c)
    | .error e => .error e
  else
    match read c with
    | .ok (a, c) => .ok (some a, c)
    | .error e => .error e

/-- The items of a list onto those already read, newest first, up to the closing bracket. Every
step takes a byte at least, so the bytes at the start bound their number. -/
def readItems {α : Type} (read : Cursor → Except Error (α × Cursor)) (items : List α)
    (count : Nat) : List UInt8 → Cursor → Except Error (List α × Cursor)
  | [], c => c.skipBlanks.failLooking .eofInList
  | _ :: fuel, c =>
    match c.listHasNext (count == 0) with
    | .error e => .error e
    | .ok (false, c) => .ok (items.reverse, c)
    | .ok (true, c) =>
      match inside (.element count) (read c) with
      | .error e => .error e
      | .ok (a, c) => readItems read (a :: items) (count + 1) fuel c

/-- **A list.** -/
def readList {α : Type} (read : Cursor → Except Error (α × Cursor)) (c : Cursor) :
    Except Error (List α × Cursor) :=
  let c := c.skipBlanks
  match c.peek? with
  | none => c.failLooking .eofInValue
  | some byte =>
    if byte == Ascii.openBracket then
      match readItems read [] 0 c.advance.rest c.advance with
      | .error e => .error e
      | .ok (items, c) => Cursor.settle (.ok items) c.closeList
    else .error (mismatch "a sequence" byte c)

/-- The value of a name, read behind its opening quote. -/
def readName {α : Type} (known : List (String × α)) (c : Cursor) :
    Except Error (α × Cursor) := do
  let (name, c) ← readText c
  match known.lookup name with
  | some a => .ok (a, c)
  | none => c.fail (.unknownVariant name (known.map Prod.fst))

/-- The `null` that may stand behind a name used as a key. -/
def readUnit (c : Cursor) : Except Error Cursor :=
  let c := c.skipBlanks
  match c.peek? with
  | none => c.failLooking .eofInValue
  | some byte =>
    if byte == Ascii.lowerN then c.advance.word [0x75, 0x6C, 0x6C]
    else .error (mismatch "unit" byte c)

/-- A name as the only key of an object whose value is `null`, behind the opening brace. -/
def readNameAsKey {α : Type} (known : List (String × α)) (c : Cursor) :
    Except Error (α × Cursor) := do
  let (found, c) ← c.objectHasNext true
  if !found then c.failLooking .expectedValue
  else
    let (a, c) ← readName known c.advance
    let c ← c.colon
    let c ← readUnit c
    let c := c.skipBlanks
    match c.peek? with
    | none => c.fail .eofInObject
    | some byte =>
      if byte == Ascii.closeBrace then .ok (a, c.advance) else c.fail .expectedValue

/-- **A value of a finite kind**, by its name. -/
def readVariant {α : Type} (known : List (String × α)) (c : Cursor) :
    Except Error (α × Cursor) :=
  let c := c.skipBlanks
  match c.peek? with
  | none => c.failLooking .eofInValue
  | some byte =>
    if byte == Ascii.quote then readName known c.advance
    else if byte == Ascii.openBrace then readNameAsKey known c.advance
    else c.failLooking .expectedValue

/-- **A value that is a whole text**: nothing but blanks may follow it. -/
def readDocument {α : Type} (read : Cursor → Except Error (α × Cursor)) (bytes : List UInt8) :
    Except Error α := do
  let (a, c) ← read (.start bytes)
  let c := c.skipBlanks
  if c.rest.isEmpty then .ok a else c.failLooking .trailingCharacters

end OrderDesk.Json
