import OrderDesk.Desk.Error
import OrderDesk.Http.Message
import OrderDesk.Json.Value

/-!
# Refused requests

Every refusal of an order route is answered by a JSON object with a code and a message. Of a
failure inside the desk the client learns nothing but that it happened.

## Main definitions

* `BodyError`: why a body is not read
* `Refusal`: why a request is refused, with `Refusal.status`, `Refusal.code`, `Refusal.told`
* `Refusal.respond`
-/

namespace OrderDesk.Http

open Json (Value)

/-- **Why a body is not read.** -/
inductive BodyError where
  | notAnnounced
  | tooLong
  | malformed (reason : Json.Error)
  deriving DecidableEq

/-- The wording of a body that is not read. -/
def BodyError.message : BodyError → String
  | notAnnounced => "Expected request with `Content-Type: application/json`"
  | tooLong => "Failed to buffer the request body: length limit exceeded"
  | malformed e =>
    match e.cause.category with
    | .data =>
      "Failed to deserialize the JSON body into the target type: " ++ e.messageWithPath
    | _ => "Failed to parse the request body as JSON: " ++ e.messageWithPath

/-- **Why a request is refused.** -/
inductive Refusal where
  | desk (reason : DeskError)
  | validation (reason : String)
  | body (reason : BodyError)
  deriving DecidableEq

namespace Refusal

/-- The wording for those who run the desk. -/
def message : Refusal → String
  | desk reason => reason.message
  | validation reason => reason
  | body reason => reason.message

/-- The status of the answer. -/
def status : Refusal → Nat
  | validation _ | body _ => 400
  | desk (.badRequest _) | desk (.partsNotFound _ _) => 400
  | desk (.orderNotFound _) => 404
  | desk (.invalidStatus _ _) => 409
  | desk .paymentFailed => 502
  | desk (.internal _) => 500

/-- The code of the answer. -/
def code : Refusal → String
  | validation _ | body _ | desk (.badRequest _) => "BAD_REQUEST"
  | desk (.partsNotFound _ _) => "PARTS_NOT_FOUND"
  | desk (.orderNotFound _) => "ORDER_NOT_FOUND"
  | desk (.invalidStatus _ _) => "INVALID_ORDER_STATUS"
  | desk .paymentFailed => "PAYMENT_FAILED"
  | desk (.internal _) => "INTERNAL"

/-- **What the client is told**: causes inside the desk are not. -/
def told : Refusal → String
  | validation reason => reason
  | body reason => reason.message
  | desk (.badRequest reason) => reason
  | desk (.internal _) => "Internal Server Error"
  | desk reason => reason.message

/-- The body of the answer. -/
def bodyValue (r : Refusal) : Value :=
  .object [("code", .text r.code), ("message", .text r.told)]

/-- **The answer to a refused request.** -/
def respond (r : Refusal) : Response :=
  ⟨r.status, [("content-type", "application/json")], r.bodyValue.render⟩

end Refusal

end OrderDesk.Http
