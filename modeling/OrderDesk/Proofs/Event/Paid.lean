import OrderDesk.Event.Json
import OrderDesk.Proofs.Json.Value

/-!
# What is told of a payment can be read back

The payload of an announced payment tells all of the event, and its key tells the order.

## Main definitions

* `MemberText`: the texts of the members of an event

## Main results

* `tracks`: each field takes the texts of its value
* `recordText_renderChars`: the written form is one of the texts of the event
* `payload_lossless`: the payload and the key of an event are read back
-/

namespace OrderDesk.PaidEvent

open Json Text

/-- **The texts of the members** of an event. -/
structure MemberText (e : PaidEvent) (name : String) (text : List Char) : Prop where
  eventId : name = "event_id" → UuidText e.eventId text
  orderId : name = "order_id" → UuidText e.orderId text
  user : name = "user_id" → Quotes e.user text
  method : name = "payment_method" → Quotes e.method.name text
  transaction : name = "transaction_id" → Quotes e.transaction text

/-- The event as far as it has been read. -/
def draft (e : PaidEvent) (seen : List String) : Draft where
  eventId := if "event_id" ∈ seen then some e.eventId else none
  orderId := if "order_id" ∈ seen then some e.orderId else none
  user := if "user_id" ∈ seen then some e.user else none
  method := if "payment_method" ∈ seen then some e.method else none
  transaction := if "transaction_id" ∈ seen then some e.transaction else none

/-- **Each field takes the texts of its value.** -/
theorem tracks (e : PaidEvent) : shape.Tracks e.draft e.MemberText where
  start := rfl
  fields := by
    simp only [shape, List.forall_mem_cons]
    refine ⟨?_, ?_, ?_, ?_, ?_, by simp⟩
    · exact .of (fun _ h => if_neg h) (by simp [draft])
        fun _ text => takes_uuid (text.eventId rfl)
    · exact .of (fun _ h => if_neg h) (by simp [draft])
        fun _ text => takes_uuid (text.orderId rfl)
    · exact .of (fun _ h => if_neg h) (by simp [draft])
        fun _ text => takes_string (text.user rfl)
    · exact .of (fun _ h => if_neg h) (by simp [draft])
        fun _ text => takes_name (Method.ofName?_name e.method) (text.method rfl)
    · exact .of (fun _ h => if_neg h) (by simp [draft])
        fun _ text => takes_string (text.transaction rfl)

/-- The event is complete once all of its fields have been read. -/
theorem toEvent_draft {e : PaidEvent} {seen : List String}
    (h : ∀ name ∈ shape.names, name ∈ seen) : (e.draft seen).toEvent = .ok e := by
  simp only [Shape.names, shape, Field.of, List.map_cons, List.map_nil, List.forall_mem_cons] at h
  obtain ⟨heventId, horderId, huser, hmethod, htransaction, -⟩ := h
  simp [draft, Draft.toEvent, heventId, horderId, huser, hmethod, htransaction, required, bind,
    Except.bind]

/-- The written form of an identifier is one of its texts. -/
theorem uuidText_toText (id : Uuid) : UuidText id (Value.quotedChars id.toText) :=
  ⟨id.toChars, id.spells_toChars, quotes_quotedChars _⟩

/-- The members of the written form. -/
def members (e : PaidEvent) : List (String × Value) :=
  [("event_id", e.eventId.toJson), ("order_id", e.orderId.toJson), ("user_id", .text e.user),
    ("payment_method", e.method.toJson), ("transaction_id", .text e.transaction)]

theorem map_fst_memberTexts (e : PaidEvent) :
    (memberTexts e.members).map Prod.fst = shape.names := rfl

theorem memberText_members (e : PaidEvent) :
    ∀ m ∈ memberTexts e.members, e.MemberText m.1 m.2 := by
  simp only [memberTexts, members, List.map_cons, List.map_nil, List.forall_mem_cons]
  refine ⟨?_, ?_, ?_, ?_, ?_, by simp⟩
  · refine ⟨fun _ => uuidText_toText _, ?_, ?_, ?_, ?_⟩ <;> exact fun h => absurd h (by decide)
  · refine ⟨?_, fun _ => uuidText_toText _, ?_, ?_, ?_⟩ <;> exact fun h => absurd h (by decide)
  · refine ⟨?_, ?_, fun _ => quotes_quotedChars _, ?_, ?_⟩ <;> exact fun h => absurd h (by decide)
  · refine ⟨?_, ?_, ?_, fun _ => quotes_quotedChars _, ?_⟩ <;> exact fun h => absurd h (by decide)
  · refine ⟨?_, ?_, ?_, ?_, fun _ => quotes_quotedChars _⟩ <;> exact fun h => absurd h (by decide)

/-- **The written form is one of the texts of the event.** -/
theorem recordText_renderChars (e : PaidEvent) :
    RecordText shape.names e.MemberText e.toJson.renderChars := by
  have hnames : ∀ m ∈ memberTexts e.members, m.1 ∈ shape.names := fun m hm =>
    e.map_fst_memberTexts ▸ List.mem_map_of_mem hm
  refine .of_object (objectText_renderChars e.members) ?_ (fun m hm _ => e.memberText_members m hm)
    fun m hm hother => absurd (hnames m hm) hother
  rw [map_fst_memberTexts]
  exact .of_eq (List.filter_eq_self.mpr (by simp))

/-- The payload is read as any JSON value. -/
theorem readValue_toJson (e : PaidEvent) :
    readDocument readValue (Utf8.encode e.toJson.renderChars) = .ok e.toJson := by
  have htext {depth : Nat} (name s : String) :
      (name, Value.text s).1 = (name, (Value.text s).renderChars).1 ∧
        Takes (readNested depth) (Value.text s).renderChars (.text s) :=
    ⟨rfl, takes_text (quotes_quotedChars s)⟩
  have hmembers : TakesMembers (readNested 126) e.members (memberTexts e.members) :=
    .cons (htext ..) (.cons (htext ..) (.cons (htext ..) (.cons (htext ..)
      (.cons (htext ..) .nil))))
  have htakes : Takes readValue e.toJson.renderChars e.toJson :=
    takes_object hmembers (objectText_renderChars e.members)
  exact readDocument_compact htakes

/-- **What is told of a payment can be read back.** Whatever the ids, the method and the texts of an
event are, its payload is read as that event. The key is the printed id of the order, and is read as
that; the payload, read as any JSON value, holds it as the text of its order. So two events have the
same key if and only if they are of the same order. -/
theorem payload_lossless (e : PaidEvent) :
    shape.readBytes e.encode.2 = .ok e ∧
      e.encode.1 = e.orderId.toText ∧ Uuid.parse? e.encode.1 = some e.orderId ∧
      (∃ v, readDocument readValue e.encode.2 = .ok v ∧
        v.member? "order_id" = some (.text e.encode.1)) ∧
      ∀ e' : PaidEvent, e.encode.1 = e'.encode.1 ↔ e.orderId = e'.orderId := by
  have hread : shape.readBytes (Utf8.encode e.toJson.renderChars) = .ok e :=
    e.tracks.readBytes (by decide) (fun _ => toEvent_draft) e.recordText_renderChars
  exact ⟨hread, rfl, Uuid.parse?_toText e.orderId, ⟨e.toJson, e.readValue_toJson, rfl⟩,
    fun e' => Uuid.toText_inj⟩

end OrderDesk.PaidEvent
