import OrderDesk.Proofs.Http.ErrorBody
import OrderDesk.Proofs.Uuid.Reading

/-!
# The ids of orders in paths

A path names an order by any spelling of its id, and by nothing else. Which spelling is used makes no
difference to a look at the order; a text that spells no id is refused, and quoted as it is, before
anything else of the request is looked at and before anybody is asked.

## Main results

* `parseId_eq_ok_iff`: the texts that are taken as an id
* `serve_order`: a look at an order, by any spelling of its id
* `serve_misspelled`: a text that spells no id
* `order_ids_exact`: the ids of orders are read exactly
* `shouted_id_accepted`: the lead of an id may be written in capitals, which is no spelling
-/

namespace OrderDesk.Http

open Desk (Draw)

variable {shown : Option Counters} {draw : Draw} {r : Request} {route : Route}
  {segment : List Char} {text : String} {id : Uuid}

/-- **A text is taken as an id** exactly if it is one of the texts of the id. -/
theorem parseId_eq_ok_iff : parseId text = .ok id ↔ id.Reading text.toList := by
  rw [← Uuid.parse?_eq_some_iff, parseId]
  cases Uuid.parse? text <;> simp

theorem parse?_eq_none_iff : Uuid.parse? text = none ↔ ∀ id : Uuid, ¬ id.Reading text.toList := by
  rw [Option.eq_none_iff_forall_ne_some]
  exact forall_congr' fun id => not_congr Uuid.parse?_eq_some_iff

/-- **A text that is no id** is quoted in the refusal. -/
theorem parseId_of_misspelled (misspelled : ∀ id : Uuid, ¬ id.Reading text.toList) :
    parseId text = .error (.validation ("invalid order_uuid: " ++ text)) := by
  rw [parseId, parse?_eq_none_iff.mpr misspelled]

/-- **A look at an order** depends on the id that its text is read as, and on nothing else of the
request. -/
theorem serve_order (shown : Option Counters) (draw : Draw)
    (routed : Route.ofTarget? r.target = some (.order segment)) (method : r.method = "GET")
    (decodes : decodeSegment? segment = some text) (reading : id.Reading text.toList) :
    serve shown draw r = (Desk.get id).map fun result =>
      shared (answer (fun order => .json (OrderView.ofOrder order).toJson) result).respond := by
  have served : (Route.order segment).serves r.method = true := by rw [method]; rfl
  have hid := parseId_eq_ok_iff.mpr reading
  rw [serve_routed shown draw routed (.inl method) served]
  simp only [handle, withId, decodes, get, hid, Program.map, Program.bind_assoc, Program.bind_done]

/-- **A text that spells no id** is refused before anybody is asked, whatever the rest of the request
holds. -/
theorem serve_misspelled (shown : Option Counters) (draw : Draw)
    (routed : Route.ofTarget? r.target = some route)
    (method : r.method = "GET" ∨ r.method = "POST") (served : route.serves r.method = true)
    (held : route.id? = some segment) (decodes : decodeSegment? segment = some text)
    (misspelled : ∀ id : Uuid, ¬ id.Reading text.toList) :
    serve shown draw r =
      .done (shared (Refusal.validation ("invalid order_uuid: " ++ text)).respond) := by
  have hid := parseId_of_misspelled misspelled
  rw [serve_routed shown draw routed method served]
  cases route with
  | health => cases held
  | counters => cases held
  | orders => cases held
  | order segment' =>
    obtain rfl : segment' = segment := Option.some.inj held
    simp only [handle, withId, decodes, get, hid]
    rfl
  | pay segment' =>
    obtain rfl : segment' = segment := Option.some.inj held
    simp only [handle, withId, decodes, pay, hid]
    rfl
  | cancel segment' =>
    obtain rfl : segment' = segment := Option.some.inj held
    simp only [handle, withId, decodes, cancel, hid]
    rfl

/-- **The ids of orders are read exactly.** A text is taken as an id if and only if it is one of the
texts of that id, so the printed form is. Looks at an order by two texts of its id are the same
program, and get the same answer from any store, whatever else the requests hold. Any other text is
refused on each route that takes an id: nobody is asked, and the answer has status 400 and quotes the
text as it is, whatever the body of the request is. -/
theorem order_ids_exact :
    (∀ (text : String) (id : Uuid), parseId text = .ok id ↔ id.Reading text.toList) ∧
    (∀ id : Uuid, parseId id.toText = .ok id) ∧
    (∀ (id : Uuid) (shown shown' : Option Counters) (draw draw' : Draw) (r r' : Request)
      (segment segment' : List Char) (text text' : String),
      r.method = "GET" → Route.ofTarget? r.target = some (.order segment) →
      decodeSegment? segment = some text → id.Reading text.toList →
      r'.method = "GET" → Route.ofTarget? r'.target = some (.order segment') →
      decodeSegment? segment' = some text' → id.Reading text'.toList →
        serve shown draw r = serve shown' draw' r') ∧
    (∀ (shown : Option Counters) (draw : Draw) (r : Request) (route : Route)
      (segment : List Char) (text : String),
      Route.ofTarget? r.target = some route → r.method = "GET" ∨ r.method = "POST" →
      route.serves r.method = true → route.id? = some segment →
      decodeSegment? segment = some text → (∀ id : Uuid, ¬ id.Reading text.toList) →
        ∃ response, serve shown draw r = .done response ∧ response.status = 400 ∧
          ErrorBody response.body "BAD_REQUEST" ("invalid order_uuid: " ++ text)) := by
  refine ⟨fun _ _ => parseId_eq_ok_iff, ?_, ?_, ?_⟩
  · intro id
    apply parseId_eq_ok_iff.mpr
    rw [Uuid.toText, String.toList_ofList]
    exact .spelling id.spells_toChars
  · intro id shown shown' draw draw' r r' segment segment' text text' method routed decodes reading
      method' routed' decodes' reading'
    rw [serve_order shown draw routed method decodes reading,
      serve_order shown' draw' routed' method' decodes' reading']
  · intro shown draw r route segment text routed method served held decodes misspelled
    exact ⟨_, serve_misspelled shown draw routed method served held decodes misspelled, rfl,
      errorBody_respond _⟩

/-- A payment that is announced as no JSON and has no body. -/
def payNothing (segment : String) : Request where
  method := "POST"
  target := "/api/v1/orders/" ++ segment ++ "/pay"
  headers := []
  body := []

theorem order_ids_exact_wrapped :
    serve none default (lookAt "Urn:Uuid:AbCdEf01-0000-4000-8000-00000000000F") =
      serve none default (lookAt "%7babcdef01-0000-4000-8000-00000000000f%7D") ∧
    ∃ response, serve none default (payNothing "%C3%A9%22") = .done response ∧
      response.status = 400 ∧
      ErrorBody response.body "BAD_REQUEST" ("invalid order_uuid: " ++ "é\"") := by
  have hread {text : String} {id : Uuid} (h : Uuid.parse? text = some id) :
      id.Reading text.toList := Uuid.parse?_eq_some_iff.mp h
  obtain ⟨id, hid⟩ : ∃ id, Uuid.parse? "abcdef01-0000-4000-8000-00000000000f" = some id :=
    ⟨_, rfl⟩
  have hsame : Uuid.parse? "Urn:Uuid:AbCdEf01-0000-4000-8000-00000000000F" =
      Uuid.parse? "abcdef01-0000-4000-8000-00000000000f" ∧
      Uuid.parse? "\x7babcdef01-0000-4000-8000-00000000000f\x7d" =
      Uuid.parse? "abcdef01-0000-4000-8000-00000000000f" := by decide +kernel
  constructor
  · exact order_ids_exact.2.2.1 id none none default default _ _
      "Urn:Uuid:AbCdEf01-0000-4000-8000-00000000000F".toList
      "%7babcdef01-0000-4000-8000-00000000000f%7D".toList
      "Urn:Uuid:AbCdEf01-0000-4000-8000-00000000000F"
      "\x7babcdef01-0000-4000-8000-00000000000f\x7d"
      rfl (by decide +kernel) (by decide +kernel) (hread (hsame.1.trans hid))
      rfl (by decide +kernel) (by decide +kernel) (hread (hsame.2.trans hid))
  · exact order_ids_exact.2.2.2 none default _ (.pay "%C3%A9%22".toList) "%C3%A9%22".toList "é\""
      (by decide +kernel) (.inr rfl) rfl rfl (by decide +kernel)
      (parse?_eq_none_iff.mp (by decide +kernel))

/-- **The lead of an id may be written in capitals**, which is none of the four spellings. -/
theorem shouted_id_accepted :
    parseId "URN:UUID:00000000-0000-0000-0000-000000000000" = .ok .nil ∧
      ∀ id : Uuid, ¬ id.Spells "URN:UUID:00000000-0000-0000-0000-000000000000".toList := by
  refine ⟨by rfl, ?_⟩
  intro id spells
  generalize htext : "URN:UUID:00000000-0000-0000-0000-000000000000".toList = text at spells
  have hhead : text.head? = some 'U' := htext ▸ rfl
  cases spells with
  | simple digits =>
    have hread := Uuid.ofSimple?_of_writes digits
    rw [← htext, show Uuid.ofSimple? _ = none by decide +kernel] at hread
    cases hread
  | hyphenated digits =>
    have hread := Uuid.ofGrouped?_of_writes digits
    rw [← htext, show Uuid.ofGrouped? _ = none by decide +kernel] at hread
    cases hread
  | braced digits => simp at hhead
  | urn digits => exact absurd (Option.some.inj hhead) (by decide)

end OrderDesk.Http
