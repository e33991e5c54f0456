import OrderDesk.Desk.Basic
import OrderDesk.Event.Json
import OrderDesk.Feed.Error

/-!
# The reader of the feed

Messages are handled one at a time, in the order they come. A message is committed only after the
desk applied its event, or after an event was dropped that can never apply. Anything else stops the
reader, and the message comes again from a new source.

## Main definitions

* `Message.decodeAssembled`: the event of a message
* `Consumer.turn`: one message, from its arrival to its commit
* `Consumer.run`: turns until the feed is closed
-/

namespace OrderDesk

/-- **The event of a message.** -/
def Message.decodeAssembled (m : Message) : Except FeedError AssembledEvent :=
  match AssembledEvent.shape.readBytes m.payload with
  | .ok event => .ok event
  | .error e => .error (.decode m.topic m.partition m.offset e)

namespace Consumer

/-- **A question of the reader**: the next message, the commit of a message, or a question that the
desk asks on its behalf. -/
inductive Question where
  | receive
  | commit (message : Message)
  | desk (call : Call)

/-- The answers to a question; a closed feed has no next message. -/
def Question.Answer : Question → Type
  | .receive => Except SourceError (Option Message)
  | .commit _ => Except SourceError Unit
  | .desk call => call.Answer

/-- A program of the desk, run on behalf of the reader. -/
def atDesk {R : Type} : Program Call Call.Answer R → Program Question Question.Answer R
  | .done r => .done r
  | .ask call next => .ask (.desk call) fun a => atDesk (next a)

/-- What becomes of a message once the desk has answered: an event for an order that cannot be
assembled is dropped. -/
def handled (event : AssembledEvent) : Except DeskError Unit → Except FeedError Unit
  | .ok _ => .ok ()
  | .error (.invalidStatus _ _) => .ok ()
  | .error e => .error (.handler event.orderId e)

/-- How a turn ends: with a committed message, at the end of the feed, or by a failure. -/
inductive Turn where
  | committed
  | closed
  | failed (reason : FeedError)
  deriving DecidableEq

/-- A message is committed. -/
def commit (m : Message) : Program Question Question.Answer Turn :=
  .ask (.commit m) fun
    | .error e => .done (.failed (.source e))
    | .ok _ => .done .committed

/-- **A message is handled**, then committed. -/
def handle (m : Message) (now : Instant) : Program Question Question.Answer Turn :=
  match m.decodeAssembled with
  | .error e => .done (.failed e)
  | .ok event =>
    (atDesk (Desk.assemble event.orderId now)).bind fun result =>
      match handled event result with
      | .error e => .done (.failed e)
      | .ok _ => commit m

/-- **One turn**: the next message, if there is one. -/
def turn (now : Instant) : Program Question Question.Answer Turn :=
  .ask .receive fun
    | .error e => .done (.failed (.source e))
    | .ok none => .done .closed
    | .ok (some m) => handle m now

/-- How the reader ends: at the end of the feed or by a failure. -/
abbrev Outcome := Except FeedError Unit

/-- **Turns until the feed is closed**, each at its instant of a clock and with the answers of that
instant; there is no outcome if the clock stops before the feed does. -/
def run {σ : Type} (answer : Instant → (q : Question) → σ → Option q.Answer × σ) :
    List Instant → σ → Option Outcome × σ
  | [], s => (none, s)
  | now :: clock, s =>
    match (turn now).run (answer now) s with
    | (some .committed, s) => run answer clock s
    | (some .closed, s) => (some (.ok ()), s)
    | (some (.failed e), s) => (some (.error e), s)
    | (none, s) => (none, s)

end Consumer

end OrderDesk
