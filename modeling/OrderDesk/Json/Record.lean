import OrderDesk.Json.Reader
import OrderDesk.Json.Skip

/-!
# Records

A record is an object with named members, in any order. Members with other names are passed over,
a name that comes twice is refused, and what is missing is told by the record. A record may also be
written as the list of its fields in order.

## Main definitions

* `Field`, `Shape`: how a record is built up
* `Shape.read`: its reader
-/

namespace OrderDesk.Json

open Text

/-- **A field** of a record that is built up in a `P`: its name, whether it has been read, and the
reader of its value. -/
structure Field (P : Type) where
  name : String
  isSet : P → Bool
  read : P → Cursor → Except Error (P × Cursor)

/-- A field read by `read` into its place in `P`. -/
def Field.of {P β : Type} (name : String) (get : P → Option β) (set : P → Option β → P)
    (read : Cursor → Except Error (β × Cursor)) : Field P where
  name := name
  isSet := fun p => (get p).isSome
  read := fun p c =>
    match read c with
    | .ok (b, c) => .ok (set p (some b), c)
    | .error e => .error e

/-- **The shape of a record**: its name, its fields in order, the start of the reader, and the
record that it ends with, or the name of the first field that is missing. -/
structure Shape (P α : Type) where
  name : String
  fields : List (Field P)
  start : P
  finish : P → Except String α

namespace Shape

variable {P α : Type}

/-- What a message expects in the place of the record. -/
def expected (s : Shape P α) : String := "struct " ++ s.name

/-- What a message expects in the place of a list that is too short. -/
def expectedLength (s : Shape P α) : String :=
  s.expected ++ " with " ++ toString s.fields.length
    ++ (if s.fields.length = 1 then " element" else " elements")

/-- The value of a member, behind its key. The way to it starts behind the colon. -/
def readMember (f : Field P) (p : P) (c : Cursor) : Except Error (P × Cursor) :=
  match c.colon with
  | .error e => .error e
  | .ok c => inside (.member f.name) (f.read p c)

/-- Passes over the value of a member with an unknown name, behind its key. -/
def skipMember (name : String) (c : Cursor) : Except Error Cursor :=
  match c.colon with
  | .error e => .error e
  | .ok c => inside (.member name) (skipValue c)

/-- **The members of an object**, up to the closing brace or a name that comes twice. Every step
takes a byte at least, so the bytes at the start bound their number. -/
def readMembers (s : Shape P α) (first : Bool) (p : P) :
    List UInt8 → Cursor → Except Error (Except Cause P × Cursor)
  | [], c => c.skipBlanks.failLooking .eofInObject
  | _ :: fuel, c =>
    match c.objectHasNext first with
    | .error e => .error e
    | .ok (false, c) => .ok (.ok p, c)
    | .ok (true, c) =>
      match readText c.advance with
      | .error e => .error e
      | .ok (name, c) =>
        match s.fields.find? fun f => f.name == name with
        | none =>
          match skipMember name c with
          | .error e => .error e
          | .ok c => readMembers s false p fuel c
        | some f =>
          -- the value of a second member is not looked at
          if f.isSet p then .ok (.error (.duplicateField name), c)
          else match readMember f p c with
            | .error e => .error e
            | .ok (p, c) => readMembers s false p fuel c

/-- **The fields of a record written as a list**, from the field number `index` on. -/
def readElements (s : Shape P α) (index : Nat) (p : P) :
    List (Field P) → Cursor → Except Error (Except Cause P × Cursor)
  | [], c => .ok (.ok p, c)
  | f :: fields, c =>
    match c.listHasNext (index == 0) with
    | .error e => .error e
    | .ok (false, c) => .ok (.error (.invalidLength index s.expectedLength), c)
    | .ok (true, c) =>
      match inside (.element index) (f.read p c) with
      | .error e => .error e
      | .ok (p, c) => readElements s (index + 1) p fields c

/-- The record at the end of its members. -/
def complete (s : Shape P α) : Except Cause P → Except Cause α
  | .error cause => .error cause
  | .ok p =>
    match s.finish p with
    | .ok a => .ok a
    | .error name => .error (.missingField name)

/-- **The reader of a record.** -/
def read (s : Shape P α) (c : Cursor) : Except Error (α × Cursor) :=
  let c := c.skipBlanks
  match c.peek? with
  | none => c.failLooking .eofInValue
  | some byte =>
    if byte == Ascii.openBrace then
      match s.readMembers true s.start c.advance.rest c.advance with
      | .error e => .error e
      | .ok (outcome, c) => Cursor.settle (s.complete outcome) c.closeObject
    else if byte == Ascii.openBracket then
      match s.readElements 0 s.start s.fields c.advance with
      | .error e => .error e
      | .ok (outcome, c) => Cursor.settle (s.complete outcome) c.closeList
    else .error (mismatch s.expected byte c)

/-- The record that is a whole text. -/
def readBytes (s : Shape P α) (bytes : List UInt8) : Except Error α :=
  readDocument s.read bytes

end Shape

/-- A field that must be there. -/
def required {β : Type} (name : String) : Option β → Except String β
  | some b => .ok b
  | none => .error name

end OrderDesk.Json
