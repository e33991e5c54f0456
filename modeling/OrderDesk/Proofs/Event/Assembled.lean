import OrderDesk.Feed.Consumer
import OrderDesk.Proofs.Json.Value

/-!
# Assembled events as they may be rendered

Whoever announces an assembly may render the event as it likes: the members in any order, among
others, with any blanks, names and strings with any escapes, identifiers in any of their spellings.
The reader of the feed understands each of these renderings.

## Main definitions

* `Rendered`: the renderings of an event

## Main results

* `tracks`: each field takes the texts of its value
* `decodeAssembled_of_rendered`: every rendering is understood
-/

namespace OrderDesk.AssembledEvent

open Json Text

/-- **The texts of the members** of an event. The build time is written in plain decimal. -/
structure MemberText (e : AssembledEvent) (name : String) (text : List Char) : Prop where
  eventId : name = "event_id" → UuidText e.eventId text
  orderId : name = "order_id" → UuidText e.orderId text
  user : name = "user_id" → Quotes e.user text
  buildSeconds : name = "build_time_seconds" → text = (toString e.buildSeconds).toList

/-- **The renderings of an event**: objects with its four members in any order, among any others. -/
def Rendered (e : AssembledEvent) : List Char → Prop :=
  RecordText ["event_id", "order_id", "user_id", "build_time_seconds"] e.MemberText

/-- The event as far as it has been read. -/
def draft (e : AssembledEvent) (seen : List String) : Draft where
  eventId := if "event_id" ∈ seen then some e.eventId else none
  orderId := if "order_id" ∈ seen then some e.orderId else none
  user := if "user_id" ∈ seen then some e.user else none
  buildSeconds := if "build_time_seconds" ∈ seen then some e.buildSeconds else none

variable {e : AssembledEvent}

/-- **Each field takes the texts of its value.** -/
theorem tracks
    (fits : -0x8000000000000000 ≤ e.buildSeconds ∧ e.buildSeconds < 0x8000000000000000) :
    shape.Tracks e.draft e.MemberText where
  start := rfl
  fields := by
    simp only [shape, List.forall_mem_cons]
    refine ⟨?_, ?_, ?_, ?_, by simp⟩
    · exact .of (fun _ h => if_neg h) (by simp [draft])
        fun _ text => takes_uuid (text.eventId rfl)
    · exact .of (fun _ h => if_neg h) (by simp [draft])
        fun _ text => takes_uuid (text.orderId rfl)
    · exact .of (fun _ h => if_neg h) (by simp [draft])
        fun _ text => takes_string (text.user rfl)
    · exact .of (fun _ h => if_neg h) (by simp [draft])
        fun _ text => text.buildSeconds rfl ▸ takes_int64 fits

/-- The event is complete once all of its fields have been read. -/
theorem toEvent_draft {seen : List String} (h : ∀ name ∈ shape.names, name ∈ seen) :
    (e.draft seen).toEvent = .ok e := by
  simp only [Shape.names, shape, Field.of, List.map_cons, List.map_nil, List.forall_mem_cons] at h
  obtain ⟨heventId, horderId, huser, hbuildSeconds, -⟩ := h
  simp [draft, Draft.toEvent, heventId, horderId, huser, hbuildSeconds, required, bind, Except.bind]

/-- **Every rendering of an event is understood**, whatever message carries it. -/
theorem decodeAssembled_of_rendered (e : AssembledEvent)
    (fits : -0x8000000000000000 ≤ e.buildSeconds ∧ e.buildSeconds < 0x8000000000000000)
    {text : List Char} (rendered : e.Rendered text) (topic : String) (part offset : Int)
    (key : Option String) :
    Message.decodeAssembled ⟨topic, part, offset, key, Utf8.encode text⟩ = .ok e := by
  have hread : shape.readBytes (Utf8.encode text) = .ok e :=
    (tracks fits).readBytes (by decide) (fun _ => toEvent_draft) rendered
  simp only [Message.decodeAssembled, hread]

/-- An identifier whose digits are letters. -/
def letters : Uuid := ⟨List.replicate 32 ⟨10, by decide⟩, rfl⟩

/-- An event of a user whose name takes a pair of surrogates. -/
def smiling : AssembledEvent := ⟨letters, .nil, "😀", -5⟩

/-- Its members in an order of their own, behind another one. -/
def smilingMembers : List (String × List Char) :=
  [("seen", "[null]".toList), ("build_time_seconds", "-5".toList),
    ("user_id", "\"\\uD83d\\uDE00\"".toList),
    ("order_id", "\"\x7b00000000-0000-0000-0000-000000000000\x7d\"".toList),
    ("event_id", "\"AAAAAAAAAAAAAAAAAAAAAAAAAAAAAAAA\"".toList)]

/-- A rendering with blanks and escapes. -/
def smilingText : List Char :=
  "\x7b\"seen\": [null],\"build_time_seconds\":-5,\"\\u0075ser_id\":\"\\uD83d\\uDE00\",\n".toList
    ++ "\"order_id\":\"\x7b00000000-0000-0000-0000-000000000000\x7d\",".toList
    ++ "\"event_id\":\"AAAAAAAAAAAAAAAAAAAAAAAAAAAAAAAA\"\x7d\n".toList

/-- The rendering is an object with these members, the name of one of them escaped. -/
theorem object_smiling :
    ∃ cs, ObjectText smilingMembers cs ∧ cs ++ ['\n'] = smilingText := by
  have hnone : Blanks [] := Cursor.blanks_nil
  have hspace : Blanks [' '] := by simp [Blanks]
  have hline : Blanks ['\n'] := by simp [Blanks]
  have hu : FourDigits "0075".toList 'u'.toNat :=
    .mk (w := 0) (x := 0) (y := 7) (z := 5) (.inl rfl) (.inl rfl) (.inl rfl) (.inl rfl)
  have hname : Quotes "user_id" _ := .mk (.cons (.number hu) (spelled_flatMap "ser_id".toList))
  refine ⟨_, .mk (.member hnone hnone (quotes_quotedChars "seen") hnone hspace
    (.member hnone hnone (quotes_quotedChars "build_time_seconds") hnone hnone
      (.member hnone hnone hname hnone hnone
        (.member hnone hline (quotes_quotedChars "order_id") hnone hnone
          (.member hnone hnone (quotes_quotedChars "event_id") hnone hnone (.close hnone)))))), ?_⟩
  decide +kernel

/-- The values are texts of the fields, some of them spelled otherwise than usual. -/
theorem text_smiling : ∀ m ∈ smilingMembers, smiling.MemberText m.1 m.2 := by
  have hhigh : FourDigits "D83d".toList (0xD800 + ('😀'.toNat - 0x10000) / 0x400) :=
    .mk (w := 13) (x := 8) (y := 3) (z := 13) (.inr rfl) (.inl rfl) (.inl rfl) (.inl rfl)
  have hlow : FourDigits "DE00".toList (0xDC00 + ('😀'.toNat - 0x10000) % 0x400) :=
    .mk (w := 13) (x := 14) (y := 0) (z := 0) (.inr rfl) (.inr rfl) (.inl rfl) (.inl rfl)
  have huser : Quotes "😀" "\"\\uD83d\\uDE00\"".toList :=
    @Quotes.mk _ "\\uD83d\\uDE00".toList (.cons (.pair (by decide) hhigh hlow) .nil)
  have hupper : List.Forall₂ Hex.Writes (letters.digits.map Hex.upperDigit) letters.digits := by
    rw [List.forall₂_map_left_iff, List.forall₂_same]
    exact fun d _ => .inr rfl
  have hevent : UuidText letters "\"AAAAAAAAAAAAAAAAAAAAAAAAAAAAAAAA\"".toList := by
    have htext : Value.quotedChars (String.ofList (letters.digits.map Hex.upperDigit)) =
        "\"AAAAAAAAAAAAAAAAAAAAAAAAAAAAAAAA\"".toList := by decide +kernel
    exact ⟨_, .simple hupper, htext ▸ quotes_quotedChars _⟩
  have horder : UuidText .nil "\"\x7b00000000-0000-0000-0000-000000000000\x7d\"".toList := by
    have htext : Value.quotedChars (String.ofList ('{' :: (Uuid.nil.toChars ++ ['}']))) =
        "\"\x7b00000000-0000-0000-0000-000000000000\x7d\"".toList := by decide +kernel
    exact ⟨_, .braced Uuid.nil.writes_simpleChars, htext ▸ quotes_quotedChars _⟩
  have hseconds : "-5".toList = (toString (-5 : Int)).toList := by decide +kernel
  simp only [smilingMembers, List.forall_mem_cons]
  refine ⟨?_, ?_, ?_, ?_, ?_, by simp⟩
  · constructor <;> exact fun h => absurd h (by decide)
  · refine ⟨?_, ?_, ?_, fun _ => hseconds⟩ <;> exact fun h => absurd h (by decide)
  · refine ⟨?_, ?_, fun _ => huser, ?_⟩ <;> exact fun h => absurd h (by decide)
  · refine ⟨?_, fun _ => horder, ?_, ?_⟩ <;> exact fun h => absurd h (by decide)
  · refine ⟨fun _ => hevent, ?_, ?_, ?_⟩ <;> exact fun h => absurd h (by decide)

theorem decodeAssembled_of_rendered_smiling :
    (-0x8000000000000000 ≤ smiling.buildSeconds ∧ smiling.buildSeconds < 0x8000000000000000) ∧
      smiling.Rendered smilingText ∧
      Message.decodeAssembled ⟨"order.assembled", 0, 7, none, Utf8.encode smilingText⟩ =
        .ok smiling := by
  have hfits : -0x8000000000000000 ≤ smiling.buildSeconds ∧
      smiling.buildSeconds < 0x8000000000000000 := by decide
  have hnull : Wellformed .value "[null]".toList := .bracket (b := .list)
    (.item Cursor.blanks_nil Cursor.blanks_nil .list Cursor.blanks_nil
      (.word (by decide : "null".toList ∈ _)) (.close Cursor.blanks_nil))
  obtain ⟨cs, hobject, htext⟩ := object_smiling
  have hrendered : smiling.Rendered smilingText := by
    rw [← htext]
    refine .mk Cursor.blanks_nil (by simp [Blanks]) hobject (by decide)
      (fun m hm _ => text_smiling m hm) (fun m hm hname => ?_)
    have hother : ∀ m ∈ smilingMembers,
        m.1 ∉ ["event_id", "order_id", "user_id", "build_time_seconds"] →
          m.2 = "[null]".toList := by decide
    rw [hother m hm hname]
    exact hnull
  exact ⟨hfits, hrendered, decodeAssembled_of_rendered smiling hfits hrendered _ _ _ _⟩

end OrderDesk.AssembledEvent
