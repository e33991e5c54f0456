import OrderDesk.Feed.Consumer
import OrderDesk.Proofs.Json.Accepted.Record

/-!
# Nothing but an assembled event

A message whose event is read carries that event, written as an object with each of its members once
or as the list of its fields. Every other message is refused by its place in the feed.

What members of other names hold is passed over and never decoded. Within the strings of their
values there may be bytes that are no text at all.

## Main definitions

* `Draft.Took`: what the fields of an event read
* `Written`: an event as it may have been written

## Main results

* `reads_shape`: each field reads what it should
* `decodeAssembled_cases`: a message carries an event, or it is refused
* `decodeAssembled_stray`: a message that is no text and yet carries an event
-/

namespace OrderDesk.AssembledEvent

open Json Text

variable {e : AssembledEvent} {d d' : Draft} {name : String} {raw : List UInt8}

/-- **What the fields of an event read**, by their names. -/
structure Draft.Took (name : String) (d : Draft) (raw : List UInt8) (d' : Draft) : Prop where
  eventId : Sets "event_id" Draft.eventId UuidBytes name d raw d'
  orderId : Sets "order_id" Draft.orderId UuidBytes name d raw d'
  user : Sets "user_id" Draft.user StringBytes name d raw d'
  buildSeconds : Sets "build_time_seconds" Draft.buildSeconds Int64Bytes name d raw d'

/-- **An event as it may have been written**: an object with each of its members once, among
well-formed ones of other names, or the list of its fields in order. -/
inductive Written (e : AssembledEvent) : List UInt8 → Prop
  | object {members : List (String × List UInt8)} {raw : List UInt8}
    (object : ObjectBytes members raw)
    (eventId : Once members "event_id" (UuidBytes e.eventId))
    (orderId : Once members "order_id" (UuidBytes e.orderId))
    (user : Once members "user_id" (StringBytes e.user))
    (buildSeconds : Once members "build_time_seconds" (Int64Bytes e.buildSeconds))
    (others : ∀ m ∈ members,
      m.1 ∉ ["event_id", "order_id", "user_id", "build_time_seconds"] → PassedOver m.2) :
    Written e raw
  | list {first second third fourth raw : List UInt8}
    (row : RowBytes [first, second, third, fourth] raw) (eventId : UuidBytes e.eventId first)
    (orderId : UuidBytes e.orderId second) (user : StringBytes e.user third)
    (buildSeconds : Int64Bytes e.buildSeconds fourth) : Written e raw

/-! ## Fields -/

theorem reads_field {β : Type} {get : Draft → Option β} {set : Draft → Option β → Draft}
    {read : Cursor → Except Error (β × Cursor)} {form : β → List UInt8 → Prop}
    (reads : Reads read form)
    (took : ∀ d b raw, form b raw → Draft.Took name d raw (set d (some b))) (d : Draft) :
    Reads ((Field.of name get set read).read d) fun d' raw => Draft.Took name d raw d' := by
  intro c c' d' h
  simp only [Field.of] at h
  split at h
  · rename_i b c₁ hread
    cases h
    obtain ⟨ws, raw, hws, hform, hrest⟩ := reads hread
    exact ⟨ws, raw, hws, took d b raw hform, hrest⟩
  · cases h

/-- **Each field reads what it should.** -/
theorem reads_shape : shape.Reads Draft.Took := by
  simp only [Shape.Reads, shape, List.forall_mem_cons]
  refine ⟨?_, ?_, ?_, ?_, by simp⟩
  · exact reads_field reads_uuid fun d id raw h => by constructor <;> simp [Sets, h]
  · exact reads_field reads_uuid fun d id raw h => by constructor <;> simp [Sets, h]
  · exact reads_field reads_string fun d user raw h => by constructor <;> simp [Sets, h]
  · exact reads_field reads_int64 fun d n raw h => by constructor <;> simp [Sets, h]

theorem keeps_eventId : shape.Keeps Draft.Took "event_id" Draft.eventId UuidBytes where
  known := by decide
  isSet := by simp [shape, Field.of]
  sets took := took.eventId

theorem keeps_orderId : shape.Keeps Draft.Took "order_id" Draft.orderId UuidBytes where
  known := by decide
  isSet := by simp [shape, Field.of]
  sets took := took.orderId

theorem keeps_user : shape.Keeps Draft.Took "user_id" Draft.user StringBytes where
  known := by decide
  isSet := by simp [shape, Field.of]
  sets took := took.user

theorem keeps_buildSeconds :
    shape.Keeps Draft.Took "build_time_seconds" Draft.buildSeconds Int64Bytes where
  known := by decide
  isSet := by simp [shape, Field.of]
  sets took := took.buildSeconds

/-- **A draft that makes an event** has all of its fields. -/
theorem of_toEvent (h : d.toEvent = .ok e) : d.eventId = some e.eventId ∧
    d.orderId = some e.orderId ∧ d.user = some e.user ∧ d.buildSeconds = some e.buildSeconds := by
  obtain ⟨eventId, orderId, user, buildSeconds⟩ := d
  cases eventId <;> cases orderId <;> cases user <;> cases buildSeconds <;> cases h
  exact ⟨rfl, rfl, rfl, rfl⟩

/-! ## Events -/

theorem written_of_shape (h : shape.Written Draft.Took e raw) : e.Written raw := by
  cases h with
  | object object led finish =>
    obtain ⟨heventId, horderId, huser, hbuildSeconds⟩ := of_toEvent finish
    exact .object object (led.once keeps_eventId rfl heventId)
      (led.once keeps_orderId rfl horderId) (led.once keeps_user rfl huser)
      (led.once keeps_buildSeconds rfl hbuildSeconds) led.others
  | list row led finish =>
    obtain ⟨heventId, horderId, huser, hbuildSeconds⟩ := of_toEvent finish
    have hfirst := led.once keeps_eventId (by decide) (by decide) heventId
    have hsecond := led.once keeps_orderId (by decide) (by decide) horderId
    have hthird := led.once keeps_user (by decide) (by decide) huser
    have hfourth := led.once keeps_buildSeconds (by decide) (by decide) hbuildSeconds
    obtain ⟨first, second, third, fourth, rfl⟩ := List.length_eq_four.mp led.length_eq
    have hnames : shape.fields.map (·.name) =
        ["event_id", "order_id", "user_id", "build_time_seconds"] := rfl
    rw [hnames] at hfirst hsecond hthird hfourth
    refine .list row ?_ ?_ ?_ ?_
    · simpa [Once, valuesOf] using hfirst
    · simpa [Once, valuesOf] using hsecond
    · simpa [Once, valuesOf] using hthird
    · simpa [Once, valuesOf] using hfourth

/-- An event as it was written is a well-formed value, byte by byte. -/
theorem Written.passedOver (h : e.Written raw) : PassedOver raw := by
  cases h with
  | object object eventId orderId user buildSeconds others =>
    refine object.passedOver fun m hm => ?_
    by_cases hname : m.1 ∈ ["event_id", "order_id", "user_id", "build_time_seconds"]
    · simp only [List.mem_cons, List.not_mem_nil, or_false] at hname
      rcases hname with hname | hname | hname | hname
      · exact (eventId.of_mem hm hname).passedOver
      · exact (orderId.of_mem hm hname).passedOver
      · exact (user.of_mem hm hname).passedOver
      · exact (buildSeconds.of_mem hm hname).passedOver
    · exact others m hm hname
  | list row eventId orderId user buildSeconds =>
    refine row.passedOver ?_
    simp only [List.forall_mem_cons]
    exact ⟨eventId.passedOver, orderId.passedOver, user.passedOver, buildSeconds.passedOver,
      by simp⟩

/-- **A message carries an event, or it is refused** by its place in the feed. Its payload is the
event as it was written, with blanks around it, and a single JSON value if it is a text. -/
theorem decodeAssembled_cases (m : Message) :
    (∃ e lead raw trail, m.decodeAssembled = .ok e ∧ Blanks lead ∧ Blanks trail ∧
      m.payload = Utf8.encode lead ++ (raw ++ Utf8.encode trail) ∧ Written e raw ∧
      ∀ text, m.payload = Utf8.encode text →
        ∃ cs, text = lead ++ (cs ++ trail) ∧ Wellformed .value cs) ∨
    ∃ reason, m.decodeAssembled = .error (.decode m.topic m.partition m.offset reason) := by
  unfold Message.decodeAssembled
  split
  · rename_i e hread
    obtain ⟨lead, raw, trail, hlead, htrail, hshape, hpayload⟩ :=
      of_readDocument reads_shape.read hread
    have hwritten : e.Written raw := written_of_shape hshape
    refine .inl ⟨e, lead, raw, trail, rfl, hlead, htrail, hpayload, hwritten, fun text htext => ?_⟩
    exact text_of_document hwritten.passedOver (htext.symm.trans hpayload)
  · rename_i reason hread
    exact .inr ⟨reason, rfl⟩

/-! ## Bytes that are no text -/

/-- An event without any digits or name, built in no time. -/
def blank : AssembledEvent := ⟨.nil, .nil, "", 0⟩

/-- The event with a note of a single byte that begins no character. -/
def strayPayload : List UInt8 :=
  Utf8.encode ("\x7b\"event_id\":\"00000000-0000-0000-0000-000000000000\",".toList ++
    "\"order_id\":\"00000000-0000-0000-0000-000000000000\",".toList ++
    "\"user_id\":\"\",\"build_time_seconds\":0,\"note\":\"".toList) ++
  0xFF :: Utf8.encode "\"\x7d".toList

/-- **A message that is no text** and yet carries an event: a note is passed over. -/
theorem decodeAssembled_stray :
    Message.decodeAssembled ⟨"order.assembled", 0, 0, none, strayPayload⟩ = .ok blank ∧
      ∀ text, Utf8.encode text ≠ strayPayload := by
  constructor
  · have hread : shape.readBytes strayPayload = .ok blank := by
      decide +kernel
    simp only [Message.decodeAssembled, hread]
  · intro text h
    have hdecode := Utf8.decode?_encode text
    rw [h] at hdecode
    have hnone : Utf8.decode? strayPayload = none := by decide +kernel
    rw [hnone] at hdecode
    cases hdecode

end OrderDesk.AssembledEvent
