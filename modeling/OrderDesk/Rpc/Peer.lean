import OrderDesk.Program
import OrderDesk.Rpc.Status
import OrderDesk.Wire.Layout

/-!
# Remote calls

A call sends one message to a path of a peer and reads one message from its reply. The peer answers
with a message or without one, and with a status; or it is silent; or nobody is there. Answers that
break off before their status are left out.

## Main definitions

* `Rpc.Request`, `Rpc.Reply`
* `Rpc.sizeLimit`: how large a message may be
* `Rpc.Reply.read`: the message of a reply, or how the call failed
* `Rpc.Exchange`, `Rpc.call`: a program that sends one request
-/

namespace OrderDesk.Rpc

/-- **A request**: where it goes, what it carries beside the message, and the message. -/
structure Request where
  path : String
  headers : List (String × String)
  message : List UInt8
  deriving DecidableEq, Repr

/-- **What a peer does with a request.** -/
inductive Reply where
  /-- Nobody is there to take it. -/
  | unreachable (reason : String)
  /-- It is taken and never answered. -/
  | silent
  /-- It is answered, with or without a message, and then with a status. -/
  | answered (message : Option (List UInt8)) (code : Int) (text : String)
  deriving DecidableEq, Repr

/-- How many bytes of a message are taken: four times `2 ^ 20`. -/
def sizeLimit : Nat := 4194304

/-- **The message of a reply.** Only a message that is not too large and can be read, followed by a
status that says so, makes a call that went well. -/
def Reply.read {M : Type} (layout : Wire.Layout M) : Reply → Except Status M
  | .unreachable reason => .error (.unreachable reason)
  | .silent => .error .expired
  | .answered none code text =>
    match Code.ofNumber code with
    | .ok => .error .noMessage
    | code => .error ⟨code, text⟩
  | .answered (some bytes) code text =>
    if sizeLimit < bytes.length then .error (.tooLarge bytes.length sizeLimit)
    else match layout.decode bytes with
      | .error e => .error (.unreadable e.message)
      | .ok message =>
        match Code.ofNumber code with
        | .ok => .ok message
        | code => .error ⟨code, text⟩

/-- **A program that talks to a peer.** -/
abbrev Exchange (α : Type) := Program Request (fun _ => Reply) (Except ClientError α)

/-- **A call**: one request, and what is made of its reply. -/
def call {M α : Type} (request : Request) (layout : Wire.Layout M) (result : M → α) : Exchange α :=
  .ask request fun reply =>
    match reply.read layout with
    | .ok message => .done (.ok (result message))
    | .error status => .done (.error status.toClientError)

end OrderDesk.Rpc
