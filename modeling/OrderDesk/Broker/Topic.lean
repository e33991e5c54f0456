import OrderDesk.Text.Pattern

/-!
# Topics

What may be the name of a topic. A client that reads takes a pattern for the names of several
topics.

## Main definitions

* `Topic.fault?`: what no client can take
* `Topic.isWritable`, `Topic.isReadable`
-/

namespace OrderDesk.Broker

/-- **A name with a NUL**, which would end it: where the first one is, and the bytes of the name. A
client that is given one stops. -/
structure TopicFault where
  place : Nat
  bytes : List UInt8
  deriving DecidableEq, Repr

/-- The wording of a name with a NUL. -/
def TopicFault.message (f : TopicFault) : String :=
  "NulError(" ++ toString f.place ++ ", [" ++ ", ".intercalate (f.bytes.map (toString ·.toNat))
    ++ "])"

namespace Topic

/-- **The fault of a name**, if it has one. -/
def fault? (topic : String) : Option TopicFault :=
  let bytes := topic.toUTF8.toList
  let before := bytes.takeWhile (· ≠ 0)
  if before.length < bytes.length then some ⟨before.length, bytes⟩ else none

/-- How many bytes the name of a topic may have. -/
def maxSize : Nat := 512

/-- **Whether a record may be sent** for a name. -/
def isWritable (topic : String) : Bool := topic.utf8ByteSize ≤ maxSize

/-- **Whether topics may be read** by a name: it is not empty, and a pattern if it is marked as
one. -/
def isReadable (topic : String) : Bool :=
  match topic.toList with
  | [] => false
  | '^' :: _ => Text.isPattern topic
  | _ :: _ => true

end Topic

end OrderDesk.Broker
