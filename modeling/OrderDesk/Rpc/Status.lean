import OrderDesk.Collaborator

/-!
# Outcomes of remote calls

A peer ends every call with a numbered status and a text. What the desk makes of a status hangs on
its code alone: the peer refused, was not there, took too long, or something else went wrong.

## Main definitions

* `Rpc.Code`, `Rpc.Code.ofNumber`
* `Rpc.Status`, `Rpc.Status.toClientError`
-/

namespace OrderDesk.Rpc

/-- **The code of a status.** -/
inductive Code where
  | ok
  | cancelled
  | unknown
  | invalidArgument
  | deadlineExceeded
  | notFound
  | alreadyExists
  | permissionDenied
  | resourceExhausted
  | failedPrecondition
  | aborted
  | outOfRange
  | unimplemented
  | internal
  | unavailable
  | dataLoss
  | unauthenticated
  deriving DecidableEq, Repr

namespace Code

/-- The name of a code in messages about it. -/
def name : Code → String
  | ok => "Ok"
  | cancelled => "Cancelled"
  | unknown => "Unknown"
  | invalidArgument => "InvalidArgument"
  | deadlineExceeded => "DeadlineExceeded"
  | notFound => "NotFound"
  | alreadyExists => "AlreadyExists"
  | permissionDenied => "PermissionDenied"
  | resourceExhausted => "ResourceExhausted"
  | failedPrecondition => "FailedPrecondition"
  | aborted => "Aborted"
  | outOfRange => "OutOfRange"
  | unimplemented => "Unimplemented"
  | internal => "Internal"
  | unavailable => "Unavailable"
  | dataLoss => "DataLoss"
  | unauthenticated => "Unauthenticated"

/-- All codes, in the order of their numbers. -/
def all : List Code :=
  [ok, cancelled, unknown, invalidArgument, deadlineExceeded, notFound, alreadyExists,
    permissionDenied, resourceExhausted, failedPrecondition, aborted, outOfRange, unimplemented,
    internal, unavailable, dataLoss, unauthenticated]

/-- The code of a number; a number out of range says nothing that is known. -/
def ofNumber : Int → Code
  | .ofNat n => (all[n]?).getD unknown
  | .negSucc _ => unknown

end Code

/-- **How a call ended**, if not with its result. -/
structure Status where
  code : Code
  text : String
  deriving DecidableEq, Repr

namespace Status

/-- **The status as a failed call.** A call that the caller gave up counts as one that took too
long. -/
def toClientError (s : Status) : ClientError :=
  match s.code with
  | .invalidArgument | .notFound | .failedPrecondition | .alreadyExists | .permissionDenied
  | .unauthenticated | .outOfRange => .rejected s.text
  | .unavailable | .resourceExhausted => .unavailable s.text
  | .deadlineExceeded | .cancelled => .timeout
  | code => .transport (code.name ++ ": " ++ s.text)

/-- A peer that nobody can reach. -/
def unreachable (reason : String) : Status := ⟨.unavailable, reason⟩

/-- A peer that did not answer in time. -/
def expired : Status := ⟨.cancelled, "Timeout expired"⟩

/-- A call that ended well, but without a message. -/
def noMessage : Status := ⟨.internal, "Missing response message."⟩

/-- A message of more bytes than are taken. -/
def tooLarge (size limit : Nat) : Status :=
  ⟨.outOfRange, "Error, decoded message length too large: found " ++ toString size
    ++ " bytes, the limit is: " ++ toString limit ++ " bytes"⟩

/-- A message that cannot be read. -/
def unreadable (reason : String) : Status := ⟨.internal, reason⟩

end Status

end OrderDesk.Rpc
