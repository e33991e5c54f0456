import OrderDesk.Broker.Error
import OrderDesk.Feed.Error

/-!
# Feeds of a broker

A broker remembers for each group how far it has read a partition: the offset of the next message.

## Main definitions

* `Broker.positionAfter`: what is committed for a message
* `Broker.openSource`
-/

namespace OrderDesk.Broker

/-- The offset of the next message, in 64 bits. -/
def nextOffset (m : Message) : Int :=
  (Int64.ofInt m.offset + 1).toInt

/-- **The position that the commit of a message stores.** It is not negative. -/
def positionAfter (m : Message) : Except SourceError Int :=
  if nextOffset m < 0 then
    .error (.commit m.topic m.partition m.offset
      ("Set partition offset error: " ++ Reason.invalidArgument.message))
  else .ok (nextOffset m)

/-- Whether a character is a blank in front of a setting. -/
def isMargin (c : Char) : Bool :=
  c == ' ' || (9 ≤ c.toNat && c.toNat ≤ 13)

/-- **A client that reads topics for a group** can be opened. A group of nothing but blanks is none.
-/
def openSource (brokers group topic : String) : Except OpenError Unit :=
  if brokers.contains '\x00' || group.contains '\x00' then .error .nul
  else if group.toList.all isMargin then .error .noGroup
  else
    match Topic.fault? topic with
    | some fault => .error (.topicFault fault)
    | none => if Topic.isReadable topic then .ok () else .error .noTopic

end OrderDesk.Broker
