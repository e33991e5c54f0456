import OrderDesk.Feed.Supervisor
import OrderDesk.Scenario.World

/-!
# Scripted feeds

A feed that delivers a list of messages and failures, and a log that is replayed from its committed
position whenever a source is made.

## Main definitions

* `Delivery`, `consume`: the reader over a list of deliveries
* `Log`, `supervise`: the supervisor over a log
-/

namespace OrderDesk.Scenario

/-- What a source delivers: a message, or a failure to receive one. -/
abbrev Delivery := Except String Message

/-- **A feed**: what is still to be delivered, the offsets whose commits fail and why, and the
offsets committed so far, oldest first. -/
structure Feed where
  world : World
  deliveries : List Delivery
  refusedCommits : List (Int × String)
  committed : List Int

/-- The answer to a question of the reader. -/
def Feed.answer (now : Instant) (draws : List Uuid) :
    (q : Consumer.Question) → Feed → Option q.Answer × Feed
  | .receive, f =>
    match f.deliveries with
    | [] => (some (.ok none), f)
    | .ok m :: rest => (some (.ok (some m)), { f with deliveries := rest })
    | .error reason :: rest => (some (.error (.receive reason)), { f with deliveries := rest })
  | .commit m, f =>
    match f.refusedCommits.lookup m.offset with
    | some reason => (some (.error (.commit m.topic m.partition m.offset reason)), f)
    | none => (some (.ok ()), { f with committed := f.committed ++ [m.offset] })
  | .desk call, f =>
    match f.world.answer now draws call with
    | (a, world) => (a, { f with world })

/-- **The reader over a list of deliveries**: one turn for each, and one to see the end. -/
def consume (now : Instant) (f : Feed) : Option Consumer.Outcome × Feed :=
  Consumer.run (Feed.answer · []) (List.replicate (f.deliveries.length + 1) now) f

/-- **The script of an attempt**: whether its source can be made, and the places of the log where
it fails. -/
structure AttemptScript where
  noSource : Option String
  receiveFailsAt : Option Nat
  commitFailsAt : Option Nat
  deriving Inhabited

/-- What is seen of an attempt. -/
inductive Trace where
  | started (attempt position : Nat)
  | notStarted (attempt : Nat) (reason : String)
  | received (index : Nat)
  | notReceived (index : Nat)
  | committed (index : Nat)
  | notCommitted (index : Nat)
  | closed
  deriving DecidableEq, Repr

/-- The line of what is seen. -/
def Trace.line : Trace → String
  | started attempt position =>
    "attempt " ++ toString attempt ++ " from " ++ toString position
  | notStarted attempt reason => "attempt " ++ toString attempt ++ " fails: " ++ reason
  | received index => "receive " ++ toString index
  | notReceived index => "receive " ++ toString index ++ " fails"
  | committed index => "commit " ++ toString index
  | notCommitted index => "commit " ++ toString index ++ " fails"
  | closed => "closed"

/-- **A log** with its committed position, the position of the current source, and what was seen,
oldest first. -/
structure Log where
  world : World
  messages : List Message
  committed : Nat
  cursor : Nat
  trace : List Trace

/-- The log with one more thing seen. -/
def Log.see (l : Log) (t : Trace) : Log := { l with trace := l.trace ++ [t] }

/-- The answer to a question of the reader, in an attempt with a script; a source that `closes` has
no messages. -/
def Log.answer (now : Instant) (script : AttemptScript) (closes : Bool) :
    (q : Consumer.Question) → Log → Option q.Answer × Log
  | .receive, l =>
    match if closes then none else l.messages[l.cursor]? with
    | none => (some (.ok none), l.see .closed)
    | some m =>
      if script.receiveFailsAt = some l.cursor then
        (some (.error (.receive "scripted")), l.see (.notReceived l.cursor))
      else (some (.ok (some m)), { l.see (.received l.cursor) with cursor := l.cursor + 1 })
  | .commit m, l =>
    -- the message that was received last
    let index := l.cursor - 1
    if script.commitFailsAt = some index then
      (some (.error (.commit m.topic m.partition m.offset "scripted")),
        l.see (.notCommitted index))
    else (some (.ok ()), { l.see (.committed index) with committed := index + 1 })
  | .desk call, l =>
    match l.world.answer now [] call with
    | (a, world) => (a, { l with world })

/-- **An attempt** by the script of its number; after the last of `attempts` sources close at
once. -/
def attempt (now : Instant) (scripts : List AttemptScript) (attempts number : Nat) (l : Log) :
    Option Attempt × Log :=
  let script := scripts[number - 1]?.getD default
  match script.noSource with
  | some reason => (some (.noSource reason), l.see (.notStarted number reason))
  | none =>
    let l := { l.see (.started number l.committed) with cursor := l.committed }
    match Consumer.run (Log.answer · script (decide (attempts < number)))
        (List.replicate (l.messages.length + 1) now) l with
    | (outcome, l) => (outcome.map .ended, l)

/-- **The supervisor over a log.** Every attempt after those that are scripted to fail closes. -/
def supervise (now : Instant) (scripts : List AttemptScript) (attempts : Nat) (l : Log) :
    Option Unit × Log :=
  Supervisor.run (attempt now scripts attempts) 1 (scripts.length + attempts + 1) l

end OrderDesk.Scenario
