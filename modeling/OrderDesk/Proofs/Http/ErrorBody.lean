import OrderDesk.Proofs.Http.Effect
import OrderDesk.Proofs.Json.Value

/-!
# What a refused client is told

Whoever asks for an order and is refused gets a JSON object with a code and a message, whatever the
refusal is due to and whatever the request holds. The message is read back as it was worded, with
what it quotes of the request. Only an id that is no text in the first place is refused otherwise,
with a plain text.

## Main definitions

* `Refused`: why a request for orders is refused, with the wording of each reason
* `ErrorBody`: a body that tells a code and a message

## Main results

* `errorBody_respond`: every refusal tells its code and its message
* `fails_of_handle`: a routed request that fails is refused for a reason, or its id is no text
* `refusal_told`: the answer to every request that fails
* `unreadable_id_untold`: an id that is no text
-/

namespace OrderDesk.Http

open Desk (Draw)
open Json (Value ObjectText Quotes readDocument readValue)
open Program (Reaches)

/-! ## Bodies -/

/-- **A body that tells a code and a message**: a JSON object with these two members and no others,
which is read as the texts that they are. -/
structure ErrorBody (body code message : String) : Prop where
  text : ∃ cs ms, ObjectText [("code", cs), ("message", ms)] body.toList ∧ Quotes code cs ∧
    Quotes message ms
  read : readDocument readValue (Text.Utf8.ofString body) =
    .ok (.object [("code", .text code), ("message", .text message)])

/-- **Every refusal tells its code and its message.** -/
theorem errorBody_respond (reason : Refusal) :
    ErrorBody reason.respond.body reason.code reason.told := by
  have hbody : reason.respond.body.toList = reason.bodyValue.renderChars :=
    String.toList_ofList
  have hobject : ObjectText (Json.memberTexts [("code", .text reason.code),
      ("message", .text reason.told)]) reason.bodyValue.renderChars :=
    Json.objectText_renderChars _
  have htext (name s : String) : (name, Value.text s).1 = (name, (Value.text s).renderChars).1 ∧
      Json.Takes (Json.readNested 126) (Value.text s).renderChars (.text s) :=
    ⟨rfl, Json.takes_text (Json.quotes_quotedChars s)⟩
  have htakes : Json.Takes readValue reason.bodyValue.renderChars reason.bodyValue :=
    Json.takes_object (.cons (htext ..) (.cons (htext ..) .nil)) hobject
  constructor
  · rw [hbody]
    exact ⟨_, _, hobject, Json.quotes_quotedChars _, Json.quotes_quotedChars _⟩
  · rw [Text.Utf8.ofString, hbody]
    exact Json.readDocument_compact htakes

/-! ## Reasons -/

/-- The segment of a path that holds the id of an order. -/
def Route.id? : Route → Option (List Char)
  | .order segment | .pay segment | .cancel segment => some segment
  | .health | .counters | .orders => none

variable {draw : Draw} {r : Request} {xs : List (Exchange Call Call.Answer)} {route : Route}
  {segment : List Char} {id : Uuid} {reply : Reply} {response : Response} {e : DeskError}

/-- **Why a request for orders is refused**, after some exchanges of the desk, and how this is
worded: what the request holds is at fault, and quoted as it is, or the desk refused. -/
inductive Refused (draw : Draw) (r : Request) :
    Route → List (Exchange Call Call.Answer) → Refusal → Prop
  | placeBody {e : BodyError} (body : readBody PlaceRequest.shape r = .error e) :
    Refused draw r .orders [] (.body e)
  | placeUser {body : PlaceRequest} (read : readBody PlaceRequest.shape r = .ok body)
    (blank : Text.allBlank body.user = true) :
    Refused draw r .orders [] (.validation "user_uuid is required")
  | place {body : PlaceRequest} {e : DeskError} {xs : List (Exchange Call Call.Answer)}
    (read : readBody PlaceRequest.shape r = .ok body) (user : Text.allBlank body.user = false)
    (failed : (Desk.place body.user body.parts draw).Reaches xs (.done (.error e))) :
    Refused draw r .orders xs (.desk e)
  | id {route : Route} {segment : List Char} {text : String} (held : route.id? = some segment)
    (decodes : decodeSegment? segment = some text) (malformed : Uuid.parse? text = none) :
    Refused draw r route [] (.validation ("invalid order_uuid: " ++ text))
  | get {segment : List Char} {id : Uuid} {e : DeskError} {xs : List (Exchange Call Call.Answer)}
    (names : Names segment id) (failed : (Desk.get id).Reaches xs (.done (.error e))) :
    Refused draw r (.order segment) xs (.desk e)
  | payBody {segment : List Char} {id : Uuid} {e : BodyError} (names : Names segment id)
    (body : readBody PayRequest.shape r = .error e) : Refused draw r (.pay segment) [] (.body e)
  | payMethod {segment : List Char} {id : Uuid} {body : PayRequest} (names : Names segment id)
    (read : readBody PayRequest.shape r = .ok body) (unknown : Method.ofName? body.method = none) :
    Refused draw r (.pay segment) []
      (.validation ("unknown payment method: " ++ body.method))
  | pay {segment : List Char} {id : Uuid} {body : PayRequest} {method : Method} {e : DeskError}
    {xs : List (Exchange Call Call.Answer)} (names : Names segment id)
    (read : readBody PayRequest.shape r = .ok body)
    (known : Method.ofName? body.method = some method)
    (failed : (Desk.pay id method draw).Reaches xs (.done (.error e))) :
    Refused draw r (.pay segment) xs (.desk e)
  | cancel {segment : List Char} {id : Uuid} {e : DeskError}
    {xs : List (Exchange Call Call.Answer)} (names : Names segment id)
    (failed : (Desk.cancel id draw.now).Reaches xs (.done (.error e))) :
    Refused draw r (.cancel segment) xs (.desk e)

/-! ## Handlers -/

/-- **A reply that fails** is a refusal. -/
theorem exists_refusal (h : 400 ≤ reply.respond.status) : ∃ reason, reply = .refused reason := by
  cases reply with
  | json body => simp at h
  | noContent => simp at h
  | refused reason => exact ⟨reason, rfl⟩

/-- An answer to the desk's result fails if the desk refused. -/
theorem reaches_of_answer {α : Type} {write : α → Reply} {p : Action α} {reason : Refusal}
    (writes : ∀ a reason, write a ≠ .refused reason)
    (h : (p.map (answer write)).Reaches xs (.done (.refused reason))) :
    ∃ e, reason = .desk e ∧ p.Reaches xs (.done (.error e)) := by
  obtain ⟨result, hreaches, hanswer⟩ := h.of_map
  cases result with
  | ok a => exact absurd hanswer (writes a reason)
  | error e =>
    cases hanswer
    exact ⟨e, rfl, hreaches⟩

/-- A refusal without asking. -/
theorem of_refuse {reason reason' : Refusal}
    (h : (refuse reason).Reaches xs (.done (.refused reason'))) : xs = [] ∧ reason' = reason := by
  obtain ⟨rfl, hdone⟩ := h.of_done
  cases hdone
  exact ⟨rfl, rfl⟩

theorem refused_of_place {reason : Refusal}
    (h : (place r draw).Reaches xs (.done (.refused reason))) :
    Refused draw r .orders xs reason := by
  unfold place at h
  cases hbody : readBody PlaceRequest.shape r with
  | error e =>
    rw [hbody] at h
    obtain ⟨rfl, rfl⟩ := of_refuse h
    exact .placeBody hbody
  | ok body =>
    simp only [hbody] at h
    by_cases hblank : Text.allBlank body.user = true
    · rw [if_pos hblank] at h
      obtain ⟨rfl, rfl⟩ := of_refuse h
      exact .placeUser hbody hblank
    · rw [if_neg hblank] at h
      obtain ⟨e, rfl, hfailed⟩ := reaches_of_answer (fun _ _ => by simp) h
      exact .place hbody (by simpa using hblank) hfailed

/-- **A handler with an id** refuses a text that is none, and goes on with the order otherwise. -/
theorem refused_of_id {text : String} {reason : Refusal} {handler : Uuid → Handler Reply}
    (held : route.id? = some segment) (decodes : decodeSegment? segment = some text)
    (h : (match parseId text with
      | .error e => refuse e
      | .ok id => handler id).Reaches xs (.done (.refused reason)))
    (handled : ∀ id, Names segment id → (handler id).Reaches xs (.done (.refused reason)) →
      Refused draw r route xs reason) : Refused draw r route xs reason := by
  unfold parseId at h
  cases hparse : Uuid.parse? text with
  | none =>
    simp only [hparse] at h
    obtain ⟨rfl, rfl⟩ := of_refuse h
    exact .id held decodes hparse
  | some id =>
    simp only [hparse] at h
    exact handled id ⟨text, decodes, hparse⟩ h

theorem refused_of_get {text : String} {reason : Refusal}
    (decodes : decodeSegment? segment = some text)
    (h : (get text).Reaches xs (.done (.refused reason))) :
    Refused draw r (.order segment) xs reason := by
  refine refused_of_id rfl decodes h fun id names h => ?_
  obtain ⟨e, rfl, hfailed⟩ := reaches_of_answer (fun _ _ => by simp) h
  exact .get names hfailed

theorem refused_of_cancel {text : String} {reason : Refusal}
    (decodes : decodeSegment? segment = some text)
    (h : (cancel text draw).Reaches xs (.done (.refused reason))) :
    Refused draw r (.cancel segment) xs reason := by
  refine refused_of_id rfl decodes h fun id names h => ?_
  obtain ⟨e, rfl, hfailed⟩ := reaches_of_answer (fun _ _ => by simp) h
  exact .cancel names hfailed

theorem refused_of_pay {text : String} {reason : Refusal}
    (decodes : decodeSegment? segment = some text)
    (h : (pay text r draw).Reaches xs (.done (.refused reason))) :
    Refused draw r (.pay segment) xs reason := by
  refine refused_of_id rfl decodes h fun id names h => ?_
  cases hbody : readBody PayRequest.shape r with
  | error e =>
    rw [hbody] at h
    obtain ⟨rfl, rfl⟩ := of_refuse h
    exact .payBody names hbody
  | ok body =>
    simp only [hbody] at h
    cases hmethod : Method.ofName? body.method with
    | none =>
      rw [hmethod] at h
      obtain ⟨rfl, rfl⟩ := of_refuse h
      exact .payMethod names hbody hmethod
    | some method =>
      simp only [hmethod] at h
      obtain ⟨e, rfl, hfailed⟩ := reaches_of_answer (fun _ _ => by simp) h
      exact .pay names hbody hmethod hfailed

/-! ## Routed requests -/

/-- **The two ways in which a request for orders fails**: its id is no text, or it is refused for a
reason. -/
def Fails (draw : Draw) (r : Request) (route : Route) (xs : List (Exchange Call Call.Answer))
    (response : Response) : Prop :=
  (∃ segment, route.id? = some segment ∧ decodeSegment? segment = none ∧ xs = [] ∧
    response = unreadableId) ∨
  ∃ reason, Refused draw r route xs reason ∧ response = reason.respond

/-- A result that fails is refused for the reason that its handler has. -/
theorem fails_of_respond {p : Handler Reply} (failed : 400 ≤ response.status)
    (h : (p.map Reply.respond).Reaches xs (.done response))
    (refused : ∀ reason, p.Reaches xs (.done (.refused reason)) → Refused draw r route xs reason) :
    Fails draw r route xs response := by
  obtain ⟨reply, hreaches, rfl⟩ := h.of_map
  obtain ⟨reason, rfl⟩ := exists_refusal failed
  exact .inr ⟨reason, refused reason hreaches, rfl⟩

/-- The id of a path is no text, or its handler goes on with the text. -/
theorem fails_of_withId {handler : String → Handler Reply} (held : route.id? = some segment)
    (failed : 400 ≤ response.status)
    (h : (withId segment handler).Reaches xs (.done response))
    (refused : ∀ text reason, decodeSegment? segment = some text →
      (handler text).Reaches xs (.done (.refused reason)) → Refused draw r route xs reason) :
    Fails draw r route xs response := by
  unfold withId at h
  cases hsegment : decodeSegment? segment with
  | none =>
    rw [hsegment] at h
    obtain ⟨rfl, hdone⟩ := h.of_done
    cases hdone
    exact .inl ⟨segment, held, hsegment, rfl, rfl⟩
  | some text =>
    rw [hsegment] at h
    exact fails_of_respond failed h fun reason => refused text reason hsegment

/-- **A routed request that fails** does so in one of the two ways. -/
theorem fails_of_handle {shown : Option Counters} (orders : route ≠ .health ∧ route ≠ .counters)
    (failed : 400 ≤ response.status)
    (h : (handle shown draw r route).Reaches xs (.done response)) :
    Fails draw r route xs response := by
  cases route with
  | health => exact absurd rfl orders.1
  | counters => exact absurd rfl orders.2
  | orders => exact fails_of_respond failed h fun _ => refused_of_place
  | order segment => exact fails_of_withId rfl failed h fun _ _ => refused_of_get
  | pay segment => exact fails_of_withId rfl failed h fun _ _ => refused_of_pay
  | cancel segment => exact fails_of_withId rfl failed h fun _ _ => refused_of_cancel

/-- **A request that its route serves** is handled. -/
theorem serve_routed (shown : Option Counters) (draw : Draw)
    (routed : Route.ofTarget? r.target = some route)
    (method : r.method = "GET" ∨ r.method = "POST") (served : route.serves r.method = true) :
    serve shown draw r = (handle shown draw r route).map shared := by
  have hoptions : ¬ (r.method == "OPTIONS") = true := by
    rcases method with h | h <;> rw [h] <;> decide
  have hhead : ¬ (r.method == "HEAD") = true := by
    rcases method with h | h <;> rw [h] <;> decide
  simp only [serve, if_neg hoptions, routed, served, if_true, withoutBody, if_neg hhead]

/-- **A request for orders that fails** is answered by a JSON object with a code and a message,
whatever the collaborators and the store do: it is refused for a reason, with the status of the
reason, and the body tells the code of it and its wording, which quotes what is at fault as the
request holds it. Only an id whose bytes are no text is answered otherwise, before anybody is
asked. -/
theorem refusal_told (shown : Option Counters) (draw : Draw) (r : Request) {route : Route}
    (routed : Route.ofTarget? r.target = some route)
    (orders : route ≠ .health ∧ route ≠ .counters)
    (method : r.method = "GET" ∨ r.method = "POST") (served : route.serves r.method = true)
    {xs : List (Exchange Call Call.Answer)} {response : Response}
    (answered : (serve shown draw r).Reaches xs (.done response))
    (failed : 400 ≤ response.status) :
    (∃ segment, route.id? = some segment ∧ decodeSegment? segment = none ∧ xs = [] ∧
      response = shared unreadableId) ∨
    ∃ reason, Refused draw r route xs reason ∧ response.status = reason.status ∧
      ("content-type", "application/json") ∈ response.headers ∧
      ErrorBody response.body reason.code reason.told := by
  rw [serve_routed shown draw routed method served] at answered
  obtain ⟨inner, hreaches, rfl⟩ := answered.of_map
  rcases fails_of_handle orders (by simpa using failed) hreaches with
    ⟨segment, held, hsegment, hxs, rfl⟩ | ⟨reason, hrefused, rfl⟩
  · exact .inl ⟨segment, held, hsegment, hxs, rfl⟩
  · exact .inr ⟨reason, hrefused, rfl, by simp [shared, Response.withHeader, Refusal.respond],
      errorBody_respond reason⟩

/-- A request to look at the order with an id. -/
def lookAt (segment : String) : Request where
  method := "GET"
  target := "/api/v1/orders/" ++ segment
  headers := []
  body := []

theorem refusal_told_quoted :
    ∃ response, (serve none ⟨.nil, .epoch⟩ (lookAt "a%22b")).Reaches [] (.done response) ∧
      400 ≤ response.status ∧
      ErrorBody response.body "BAD_REQUEST" "invalid order_uuid: a\"b" := by
  have hroute : Route.ofTarget? (lookAt "a%22b").target = some (.order "a%22b".toList) := by
    decide +kernel
  have hdecodes : decodeSegment? "a%22b".toList = some "a\"b" := by decide +kernel
  have hmalformed : Uuid.parse? "a\"b" = none := by decide +kernel
  let reason : Refusal := .validation "invalid order_uuid: a\"b"
  have hserve : serve none ⟨.nil, .epoch⟩ (lookAt "a%22b") = .done (shared reason.respond) := by
    rw [serve_routed none _ hroute (.inl rfl) rfl]
    simp only [handle, withId, hdecodes, get, parseId, hmalformed]
    rfl
  have hreaches : (serve none ⟨.nil, .epoch⟩ (lookAt "a%22b")).Reaches []
      (.done (shared reason.respond)) := hserve ▸ .here _
  rcases refusal_told none _ _ hroute (by simp) (.inl rfl) rfl hreaches (by decide) with
    ⟨_, held, hunreadable, -⟩ | ⟨reason', hrefused, hstatus, -, hbody⟩
  · cases held
    rw [hdecodes] at hunreadable
    cases hunreadable
  · cases hrefused with
    | id held decodes malformed =>
      cases held
      rw [hdecodes] at decodes
      cases decodes
      exact ⟨_, hreaches, by decide, hbody⟩
    | get names failed =>
      obtain ⟨text, decodes, parses⟩ := names
      rw [hdecodes] at decodes
      cases decodes
      rw [hmalformed] at parses
      cases parses

/-- **An id that is no text** is told by a body that is no JSON. -/
theorem unreadable_id_untold :
    Route.ofTarget? (lookAt "%ff").target = some (.order "%ff".toList) ∧
    ∃ response, (serve none ⟨.nil, .epoch⟩ (lookAt "%ff")).Reaches [] (.done response) ∧
      response.status = 400 ∧ ∀ code message, ¬ ErrorBody response.body code message := by
  have hroute : Route.ofTarget? (lookAt "%ff").target = some (.order "%ff".toList) := by
    decide +kernel
  have hdecodes : decodeSegment? "%ff".toList = none := by decide +kernel
  refine ⟨hroute, shared unreadableId, ?_, rfl, ?_⟩
  · rw [serve_routed none _ hroute (.inl rfl) rfl]
    simp only [handle, withId, hdecodes]
    exact .here _
  · intro code message h
    have hplain :
        (readDocument readValue (Text.Utf8.ofString (shared unreadableId).body)).isOk = false := by
      decide +kernel
    rw [h.read] at hplain
    cases hplain

end OrderDesk.Http
