import OrderDesk.Address
import OrderDesk.Text.Hex
import OrderDesk.Text.Utf8

/-!
# Paths

The segments of a path, and the text that a segment with percent signs stands for.

## Main definitions

* `segments`: the segments of a path
* `targetSegments`: the segments of a target's path
* `decodeSegment?`: the text of a segment
-/

namespace OrderDesk.Http

open Text

/-- The segments between slashes; `current` is the one being read, newest character first. -/
def segmentsOnto (current : List Char) : List Char → List (List Char)
  | [] => [current.reverse]
  | c :: rest =>
    if c == '/' then current.reverse :: segmentsOnto [] rest else segmentsOnto (c :: current) rest

/-- **The segments of a path** that starts with a slash. -/
def segments (path : List Char) : List (List Char) :=
  match path with
  | '/' :: rest => segmentsOnto [] rest
  | _ => []

/-- The segments of the path of a target; a target that is no address has none. -/
def targetSegments (target : String) : List (List Char) :=
  match Address.path? target with
  | some path => segments path
  | none => []

/-- The bytes of a segment, in which a percent sign and two digits stand for a byte; a percent sign
without them stands for itself. -/
def segmentBytes : List Char → List UInt8
  | '%' :: a :: b :: rest =>
    match Hex.value? a, Hex.value? b with
    | some x, some y => UInt8.ofNat (x.val * 16 + y.val) :: segmentBytes rest
    | _, _ => 0x25 :: segmentBytes (a :: b :: rest)
  | c :: rest => String.utf8EncodeChar c ++ segmentBytes rest
  | [] => []

/-- **The text of a segment**, if its bytes are one. -/
def decodeSegment? (segment : List Char) : Option String :=
  Utf8.toString? (segmentBytes segment)

end OrderDesk.Http
