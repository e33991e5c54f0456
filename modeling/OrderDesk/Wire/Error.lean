/-!
# Faults of binary messages

What can be wrong with the bytes of a message, and in which field of which message it was found.

## Main definitions

* `Wire.Kind`: how the content of a field is laid out
* `Wire.Fault`, `Wire.Error`, `Wire.Error.message`
-/

namespace OrderDesk.Wire

/-- **The layout of a field's content**, written in the last three bits of its key. -/
inductive Kind where
  | varint
  | fixed64
  | delimited
  | groupStart
  | groupEnd
  | fixed32
  deriving DecidableEq, Repr

namespace Kind

/-- The number of a layout. -/
def number : Kind → Nat
  | varint => 0
  | fixed64 => 1
  | delimited => 2
  | groupStart => 3
  | groupEnd => 4
  | fixed32 => 5

/-- The layout of a number. -/
def ofNumber? : Nat → Option Kind
  | 0 => some varint
  | 1 => some fixed64
  | 2 => some delimited
  | 3 => some groupStart
  | 4 => some groupEnd
  | 5 => some fixed32
  | _ => none

/-- The name of a layout in messages about it. -/
def name : Kind → String
  | varint => "Varint"
  | fixed64 => "SixtyFourBit"
  | delimited => "LengthDelimited"
  | groupStart => "StartGroup"
  | groupEnd => "EndGroup"
  | fixed32 => "ThirtyTwoBit"

theorem ofNumber?_number (kind : Kind) : ofNumber? kind.number = some kind := by
  cases kind <;> rfl

theorem number_lt (kind : Kind) : kind.number < 8 := by
  cases kind <;> decide

end Kind

/-- **What is wrong** with the bytes. -/
inductive Fault where
  /-- A number that does not end, or does not fit in 64 bits. -/
  | varint
  /-- A content that is longer than what is left. -/
  | underflow
  /-- A field that reaches beyond the message it belongs to. -/
  | overrun
  /-- A text that is not UTF-8. -/
  | text
  | kind (found expected : Kind)
  | kindNumber (number : Nat)
  | zeroTag
  | key (number : Nat)
  /-- The end of a group that was not the one begun last. -/
  | groupEnd
  /-- Groups or messages nested too deep. -/
  | depth
  deriving DecidableEq, Repr

/-- The wording of a fault. -/
def Fault.message : Fault → String
  | varint => "invalid varint"
  | underflow => "buffer underflow"
  | overrun => "delimited length exceeded"
  | text => "invalid string value: data is not UTF-8 encoded"
  | kind found expected =>
    "invalid wire type: " ++ found.name ++ " (expected " ++ expected.name ++ ")"
  | kindNumber number => "invalid wire type value: " ++ toString number
  | zeroTag => "invalid tag value: 0"
  | key number => "invalid key value: " ++ toString number
  | groupEnd => "unexpected end group tag"
  | depth => "recursion limit reached"

/-- **A fault and where it was found**: the messages and fields around it, innermost first. -/
structure Error where
  path : List (String × String)
  fault : Fault
  deriving DecidableEq, Repr

namespace Error

/-- The same error, seen from the field of a message around it. -/
def within (message field : String) (e : Error) : Error :=
  { e with path := e.path ++ [(message, field)] }

/-- The wording of an error. -/
def message (e : Error) : String :=
  "failed to decode Protobuf message: "
    ++ String.join (e.path.map fun (message, field) => message ++ "." ++ field ++ ": ")
    ++ e.fault.message

end Error

end OrderDesk.Wire
