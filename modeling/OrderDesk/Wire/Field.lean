import OrderDesk.Text.Utf8
import OrderDesk.Wire.Varint

/-!
# Fields on the wire

A field is a key, which holds its tag and its layout, and a content. Here are the contents that
messages are made of, written and read, and how a field that nobody asked for is skipped.

## Main definitions

* `Key`, `Key.encode`, `Key.read`
* `Field.text`, `Field.double`, `Field.enum`, `Field.message`: fields as they are written
* `Content.text`, `Content.fixed64`, `Content.varint`: contents as they are read
* `Content.skip`: a content of any layout, groups included
-/

namespace OrderDesk.Wire

/-- **The key of a field.** -/
structure Key where
  tag : Nat
  kind : Kind
  deriving DecidableEq, Repr

namespace Key

/-- The bytes of a key. -/
def encode (key : Key) : List UInt8 :=
  Varint.encode (key.tag * 8 + key.kind.number)

/-- **A key**, which fits in 32 bits and has a tag, and what follows it. -/
def read (bytes : List UInt8) : Except Fault (Key × List UInt8) :=
  match Varint.read bytes with
  | .error e => .error e
  | .ok (key, rest) =>
    if 0x100000000 ≤ key then .error (.key key)
    else
      match Kind.ofNumber? (key % 8) with
      | none => .error (.kindNumber (key % 8))
      | some kind => if key / 8 = 0 then .error .zeroTag else .ok (⟨key / 8, kind⟩, rest)

end Key

/-- The eight bytes of a word, lowest first. -/
def wordBytes (word : UInt64) : List UInt8 :=
  (List.range 8).map fun i => (word >>> (UInt64.ofNat (8 * i))).toUInt8

/-- The word of bytes, lowest first. -/
def ofWordBytes (bytes : List UInt8) : UInt64 :=
  bytes.foldr (fun byte word => word <<< 8 ||| byte.toUInt64) 0

namespace Field

/-- A content with its length in front. -/
def delimited (tag : Nat) (content : List UInt8) : List UInt8 :=
  Key.encode ⟨tag, .delimited⟩ ++ Varint.encode content.length ++ content

/-- A text that is written even if it is empty. -/
def textAlways (tag : Nat) (text : String) : List UInt8 :=
  delimited tag (Text.Utf8.ofString text)

/-- **A text**, which is left out if it is empty. -/
def text (tag : Nat) (text : String) : List UInt8 :=
  if text = "" then [] else textAlways tag text

/-- **A floating point number** by its bits, which is left out if it is a zero of either sign. -/
def double (tag : Nat) (bits : UInt64) : List UInt8 :=
  if bits = 0 ∨ bits = 0x8000000000000000 then []
  else Key.encode ⟨tag, .fixed64⟩ ++ wordBytes bits

/-- **A number of an enumeration**, which is left out if it is zero. A negative one is written as
the 64 bits of its two's complement. -/
def enum (tag : Nat) (number : Int32) : List UInt8 :=
  if number = 0 then []
  else Key.encode ⟨tag, .varint⟩ ++ Varint.encode number.toInt64.toUInt64.toNat

end Field

namespace Content

/-- The next `n` bytes, and what follows them. -/
def take (n : Nat) (bytes : List UInt8) : Except Fault (List UInt8 × List UInt8) :=
  if bytes.length < n then .error .underflow else .ok (bytes.take n, bytes.drop n)

/-- The next bytes with their length in front, and what follows them. -/
def delimited (bytes : List UInt8) : Except Fault (List UInt8 × List UInt8) :=
  match Varint.read bytes with
  | .error e => .error e
  | .ok (n, rest) => take n rest

/-- **A text**, and what follows it. -/
def text (bytes : List UInt8) : Except Fault (String × List UInt8) :=
  match delimited bytes with
  | .error e => .error e
  | .ok (content, rest) =>
    match Text.Utf8.toString? content with
    | none => .error .text
    | some text => .ok (text, rest)

/-- **A word of 64 bits**, and what follows it. -/
def fixed64 (bytes : List UInt8) : Except Fault (UInt64 × List UInt8) :=
  match take 8 bytes with
  | .error e => .error e
  | .ok (word, rest) => .ok (ofWordBytes word, rest)

/-- **A number of an enumeration**: the low 32 bits of what is written, and what follows it. -/
def enum (bytes : List UInt8) : Except Fault (Int32 × List UInt8) :=
  match Varint.read bytes with
  | .error e => .error e
  | .ok (n, rest) => .ok (Int32.ofNat n, rest)

/-- What follows a content that is no group. -/
def skipPlain (kind : Kind) (bytes : List UInt8) : Except Fault (List UInt8) :=
  match kind with
  | .varint => (Varint.read bytes).map (·.2)
  | .fixed64 => (take 8 bytes).map (·.2)
  | .delimited => (delimited bytes).map (·.2)
  | .fixed32 => (take 4 bytes).map (·.2)
  | .groupStart | .groupEnd => .error .groupEnd

/-- What follows the end of the groups that are open, the innermost first. At most `depth` groups
and fields may be nested inside one another. The first list bounds the number of keys that are read.
-/
def skipGroups (depth : Nat) : List UInt8 → List Nat → List UInt8 → Except Fault (List UInt8)
  | _, [], bytes => .ok bytes
  | [], _ :: _, _ => .error .varint
  | _ :: fuel, tag :: outer, bytes =>
    match Key.read bytes with
    | .error e => .error e
    | .ok (key, rest) =>
      if key.kind = .groupEnd then
        if key.tag = tag then skipGroups depth fuel outer rest else .error .groupEnd
      else if depth ≤ outer.length + 1 then .error .depth
      else if key.kind = .groupStart then skipGroups depth fuel (key.tag :: tag :: outer) rest
      else
        match skipPlain key.kind rest with
        | .error e => .error e
        | .ok rest => skipGroups depth fuel (tag :: outer) rest

/-- **What follows a content** that nobody asked for. A group ends with a key of its own tag. -/
def skip (depth : Nat) (key : Key) (bytes : List UInt8) : Except Fault (List UInt8) :=
  if depth = 0 then .error .depth
  else if key.kind = .groupStart then skipGroups depth (0 :: bytes) [key.tag] bytes
  else skipPlain key.kind bytes

end Content

end OrderDesk.Wire
