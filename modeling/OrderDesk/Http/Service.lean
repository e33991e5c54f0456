import OrderDesk.Desk.Basic
import OrderDesk.Http.Body
import OrderDesk.Http.MediaType
import OrderDesk.Http.Refusal
import OrderDesk.Http.Route
import OrderDesk.Text.Blank

/-!
# The order desk over HTTP

Requests are routed, their ids and bodies are read, the desk is asked, and its answer is written.
Ids are read before bodies and bodies before anything is asked. Browsers from anywhere may use the
answers.

## Main definitions

* `readBody`, `parseId`: what a request holds
* `handle`: a routed request
* `serve`: any request
-/

namespace OrderDesk.Http

open Json (Value Shape)

/-- The result of a handler: a body or none, or a refusal. -/
inductive Reply where
  | json (body : Value)
  | noContent
  | refused (reason : Refusal)

/-- **A handler**: a program of the desk that ends with an answer. -/
abbrev Handler (R : Type) := Program Call Call.Answer R

/-- The answer that a handler's result stands for. -/
def Reply.respond : Reply → Response
  | json body => ⟨200, [("content-type", "application/json")], body.render⟩
  | noContent => ⟨204, [], ""⟩
  | refused reason => reason.respond

/-- The longest body that is read. -/
def bodyLimit : Nat := 2097152

/-- **The body of a request**: announced as JSON, not too long, and of the right shape. -/
def readBody {P α : Type} (shape : Shape P α) (r : Request) : Except BodyError α :=
  if !announcesJson (r.header? "content-type") then .error .notAnnounced
  else if bodyLimit < r.body.length then .error .tooLong
  else match shape.readBytes r.body with
    | .ok a => .ok a
    | .error e => .error (.malformed e)

/-- **The id of an order in a path.** -/
def parseId (text : String) : Except Refusal Uuid :=
  match Uuid.parse? text with
  | some id => .ok id
  | none => .error (.validation ("invalid order_uuid: " ++ text))

/-- An answer without asking. -/
def refuse (reason : Refusal) : Handler Reply := .done (.refused reason)

/-- The answer to the desk's result. -/
def answer {α : Type} (write : α → Reply) : Except DeskError α → Reply
  | .ok a => write a
  | .error e => .refused (.desk e)

/-- A new order. -/
def place (r : Request) (draw : Desk.Draw) : Handler Reply :=
  match readBody PlaceRequest.shape r with
  | .error e => refuse (.body e)
  | .ok body =>
    if Text.allBlank body.user then refuse (.validation "user_uuid is required")
    else (Desk.place body.user body.parts draw).map
      (answer fun order => .json (PlaceReply.toJson ⟨order.id, order.total⟩))

/-- A look at an order. -/
def get (idText : String) : Handler Reply :=
  match parseId idText with
  | .error e => refuse e
  | .ok id => (Desk.get id).map (answer fun order => .json (OrderView.ofOrder order).toJson)

/-- The payment of an order. -/
def pay (idText : String) (r : Request) (draw : Desk.Draw) : Handler Reply :=
  match parseId idText with
  | .error e => refuse e
  | .ok id =>
    match readBody PayRequest.shape r with
    | .error e => refuse (.body e)
    | .ok body =>
      match Method.ofName? body.method with
      | none => refuse (.validation (Method.unknownMessage body.method))
      | some method =>
        (Desk.pay id method draw).map
          (answer fun transaction => .json (PayReply.toJson ⟨transaction⟩))

/-- The cancellation of an order. -/
def cancel (idText : String) (draw : Desk.Draw) : Handler Reply :=
  match parseId idText with
  | .error e => refuse e
  | .ok id => (Desk.cancel id draw.now).map (answer fun _ => .noContent)

/-- The answer to those who look whether the desk is alive. -/
def healthy : Value :=
  .object [("service", .text "hangar-order"), ("status", .text "healthy")]

/-- The counters, if there are any. -/
def countersResponse (counters : Option Counters) : Response :=
  ⟨200, [("content-type", "text/plain; version=0.0.4")],
    match counters with
    | some c => c.exposition
    | none => ""⟩

/-- The answer to an id that is no text. -/
def unreadableId : Response :=
  ⟨400, [("content-type", "text/plain; charset=utf-8")],
    "Invalid URL: Invalid UTF-8 in `order_uuid`"⟩

/-- A handler with the id of its path, which has to be a text. -/
def withId (segment : List Char) (handler : String → Handler Reply) : Handler Response :=
  match decodeSegment? segment with
  | none => .done unreadableId
  | some text => (handler text).map Reply.respond

/-- **A routed request**, with a method that the route serves. -/
def handle (counters : Option Counters) (draw : Desk.Draw) (r : Request) :
    Route → Handler Response
  | .health => .done (Reply.json healthy).respond
  | .counters => .done (countersResponse counters)
  | .orders => (place r draw).map Reply.respond
  | .order id => withId id get
  | .pay id => withId id fun text => pay text r draw
  | .cancel id => withId id fun text => cancel text draw

/-- The headers that let browsers from anywhere use an answer. -/
def shared (r : Response) : Response :=
  (r.withHeader "access-control-allow-origin" "*").withHeader "vary"
    "origin, access-control-request-method, access-control-request-headers"

/-- The answer to a browser that asks beforehand what it may do. -/
def preflight (route : Option Route) : Response :=
  let base : Response := ⟨200, [("access-control-allow-methods", "GET,POST,OPTIONS"),
    ("access-control-allow-headers", "content-type,user-agent")], ""⟩
  match route with
  | some route => base.withHeader "allow" route.allowed
  | none => base

/-- The answer to a method that looks at the headers only. -/
def withoutBody (method : String) (r : Response) : Response :=
  if method == "HEAD" then { r with body := "" } else r

/-- **Any request.** -/
def serve (counters : Option Counters) (draw : Desk.Draw) (r : Request) : Handler Response :=
  let route := Route.ofTarget? r.target
  -- a preflight is answered before its path matters
  if r.method == "OPTIONS" then .done (shared (preflight route))
  else match route with
    | none => .done (shared ⟨404, [], ""⟩)
    | some route =>
      if route.serves r.method then
        (handle counters draw r route).map fun response =>
          shared (withoutBody r.method response)
      else .done (shared ⟨405, [("allow", route.allowed)], ""⟩)

/-- The answer to a request that takes too long. -/
def timedOut : Response := ⟨408, [], ""⟩

end OrderDesk.Http
