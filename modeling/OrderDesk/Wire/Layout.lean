import OrderDesk.Wire.Field

/-!
# Layouts of messages

A message is a row of fields in any order. Its layout says which tags it knows and what each does to
the value read so far; a field with any other tag is skipped.

## Main definitions

* `Slot`, `Layout`: the fields of a message
* `Layout.readFields`: the fields of a message within an enclosing one
* `Layout.decode`: a whole message
* `Slot.text`, `Slot.double`, `Slot.enum`, `Slot.message`: slots of each kind
-/

namespace OrderDesk.Wire

/-- **A known field** of messages `M`: what its content, and all that follows, makes of the value
read so far. The number is how deep messages may still be nested. -/
structure Slot (M : Type) where
  name : String
  kind : Kind
  read : Nat → M → List UInt8 → Except Error (M × List UInt8)

/-- **The layout of a message**: its name, the value of no bytes, and the known fields. -/
structure Layout (M : Type) where
  name : String
  empty : M
  slot? : Nat → Option (Slot M)

namespace Layout

variable {M : Type}

/-- One field, and what follows it. -/
def readField (layout : Layout M) (depth : Nat) (value : M) (bytes : List UInt8) :
    Except Error (M × List UInt8) :=
  match Key.read bytes with
  | .error fault => .error ⟨[], fault⟩
  | .ok (key, rest) =>
    match layout.slot? key.tag with
    | none =>
      -- the fields of later versions are passed over
      match Content.skip depth key rest with
      | .error fault => .error ⟨[], fault⟩
      | .ok rest => .ok (value, rest)
    | some slot =>
      if key.kind = slot.kind then
        (slot.read depth value rest).mapError (·.within layout.name slot.name)
      else .error ⟨[(layout.name, slot.name)], .kind key.kind slot.kind⟩

/-- **The fields of a message** of which `after` bytes are left when it ends. A field that reads on
beyond this end is noticed behind it. The first list bounds the number of fields. -/
def readFields (layout : Layout M) (depth after : Nat) :
    List UInt8 → M → List UInt8 → Except Error (M × List UInt8)
  | [], value, bytes =>
    if bytes.length = after then .ok (value, bytes) else .error ⟨[], .overrun⟩
  | _ :: fuel, value, bytes =>
    if after < bytes.length then
      match layout.readField depth value bytes with
      | .error e => .error e
      | .ok (value, rest) => layout.readFields depth after fuel value rest
    else if bytes.length = after then .ok (value, bytes)
    else .error ⟨[], .overrun⟩

/-- How deep messages and groups may be nested. -/
def maxDepth : Nat := 100

/-- **The message of some bytes.** -/
def decode (layout : Layout M) (bytes : List UInt8) : Except Error M :=
  (layout.readFields maxDepth 0 bytes layout.empty bytes).map (·.1)

/-- A message with its length in front, read onto a value, and what follows it. -/
def readDelimited (layout : Layout M) (depth : Nat) (value : M) (bytes : List UInt8) :
    Except Error (M × List UInt8) :=
  if depth = 0 then .error ⟨[], .depth⟩
  else
    match Varint.read bytes with
    | .error fault => .error ⟨[], fault⟩
    | .ok (n, rest) =>
      if rest.length < n then .error ⟨[], .underflow⟩
      else layout.readFields (depth - 1) (rest.length - n) rest value rest

end Layout

namespace Slot

variable {M N : Type}

/-- A slot whose content is read by itself. -/
def plain {α : Type} (name : String) (kind : Kind)
    (content : List UInt8 → Except Fault (α × List UInt8)) (put : M → α → M) : Slot M where
  name
  kind
  read _ value bytes :=
    match content bytes with
    | .error fault => .error ⟨[], fault⟩
    | .ok (a, rest) => .ok (put value a, rest)

/-- **A text.** -/
def text (name : String) (put : M → String → M) : Slot M :=
  plain name .delimited Content.text put

/-- **A floating point number**, by its bits. -/
def double (name : String) (put : M → UInt64 → M) : Slot M :=
  plain name .fixed64 Content.fixed64 put

/-- **A number of an enumeration.** -/
def enum (name : String) (put : M → Int32 → M) : Slot M :=
  plain name .varint Content.enum put

/-- **A message inside**, which is read onto the value that `get` finds. -/
def message (name : String) (layout : Layout N) (get : M → N) (put : M → N → M) : Slot M where
  name
  kind := .delimited
  read depth value bytes :=
    match layout.readDelimited depth (get value) bytes with
    | .error e => .error e
    | .ok (n, rest) => .ok (put value n, rest)

end Slot

end OrderDesk.Wire
