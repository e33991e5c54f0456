import OrderDesk.Feed.Consumer
import OrderDesk.Proofs.Desk.Assembling

/-!
# How a reader handles its messages

A reader receives a message, has its event assembled at the desk, and then commits the message or
stops. What it may ask and how it may end is a law; a reader that takes turns by a clock keeps it,
whatever it is answered.

## Main definitions

* `received`, `message?`, `atReader`, `committed?`: exchanges of a reader
* `Handled`: a message was received, and the desk has answered to its event
* `loop`: turns by a clock, as one program
* `law`: the law of a reader

## Main results

* `handled_eq_ok_iff`: which results of the desk let a message be committed
* `run_eq_loop`: the reader runs its turns one after another
* `keeps_loop`: a reader keeps its law
-/

namespace OrderDesk.Consumer

/-- A message was received. -/
def received (m : Message) : Exchange Question Question.Answer :=
  ⟨.receive, (Except.ok (some m) : Except SourceError (Option Message))⟩

/-- The message that was received, if it was one. -/
def message? : Exchange Question Question.Answer → Option Message
  | ⟨.receive, answer⟩ =>
    match (answer : Except SourceError (Option Message)) with
    | .ok m => m
    | .error _ => none
  | _ => none

@[simp] theorem message?_received (m : Message) : message? (received m) = some m := rfl

/-- An exchange of the desk, on behalf of a reader. -/
def atReader (x : Exchange Call Call.Answer) : Exchange Question Question.Answer :=
  ⟨.desk x.question, x.answer⟩

@[simp] theorem message?_atReader (x : Exchange Call Call.Answer) :
    message? (atReader x) = none := rfl

theorem received_inj {m m' : Message} (h : received m = received m') : m = m' := by
  simpa using congrArg message? h

theorem received_not_mem {xs : List (Exchange Question Question.Answer)}
    (h : ∀ x ∈ xs, message? x = none) (m : Message) : received m ∉ xs := by
  intro hm
  simpa using h _ hm

/-- The message that was to be committed, if it was one. -/
def committed? : Exchange Question Question.Answer → Option Message
  | ⟨.commit m, _⟩ => some m
  | _ => none

theorem eq_of_committed? {x : Exchange Question Question.Answer} {m : Message}
    (h : committed? x = some m) : ∃ answer, x = ⟨.commit m, answer⟩ := by
  obtain ⟨q, a⟩ := x
  cases q with
  | commit m' =>
    obtain rfl := Option.some.inj h
    exact ⟨a, rfl⟩
  | receive => cases h
  | desk call => cases h

/-- **The desk has answered** to the event of a message: after the exchanges `earlier` the message
was received, and then its event was brought to the desk, which asked what it asks and had this
result. -/
structure Handled (m : Message) (event : AssembledEvent)
    (earlier : List (Exchange Question Question.Answer)) (result : Except DeskError Unit)
    (past : List (Exchange Question Question.Answer)) : Prop where
  decoded : m.decodeAssembled = .ok event
  brought : ∃ now calls, (Desk.assemble event.orderId now).Reaches calls (.done result) ∧
    past = earlier ++ received m :: calls.map atReader

/-- **A message is committed** after a success of the desk, or if its order cannot be assembled. -/
theorem handled_eq_ok_iff {event : AssembledEvent} {result : Except DeskError Unit} :
    handled event result = .ok () ↔
      result = .ok () ∨ ∃ id status, result = .error (.invalidStatus id status) := by
  rcases result with e | -
  · cases e <;> simp [handled]
  · simp [handled]

/-- **Any other refusal of the desk** stops the reader, for the order of the event. -/
theorem handled_eq_error_iff {event : AssembledEvent} {result : Except DeskError Unit}
    {reason : FeedError} :
    handled event result = .error reason ↔ ∃ e, result = .error e ∧
      (∀ id status, e ≠ .invalidStatus id status) ∧ reason = .handler event.orderId e := by
  rcases result with e | -
  · cases e <;> simp [handled, eq_comm]
  · simp [handled]

theorem handled_eq_handler {event : AssembledEvent} {result : Except DeskError Unit} {id : Uuid}
    {e : DeskError} (h : handled event result = .error (.handler id e)) : result = .error e := by
  cases result with
  | error e' => cases e' <;> simp_all [handled]
  | ok _ => cases h

theorem decodeAssembled_ne_handler (m : Message) (id : Uuid) (e : DeskError) :
    m.decodeAssembled ≠ .error (.handler id e) := by
  unfold Message.decodeAssembled
  split <;> simp

/-- **What a reader asks at the desk** is answered there, wherever the desk is kept. -/
theorem run_atDesk {R σ τ : Type} {answer : (q : Question) → σ → Option q.Answer × σ}
    {desk : (call : Call) → τ → Option call.Answer × τ} (put : τ → σ)
    (answered : ∀ call t, answer (.desk call) (put t) = ((desk call t).1, put (desk call t).2))
    (p : Program Call Call.Answer R) (t : τ) :
    (atDesk p).run answer (put t) = ((p.run desk t).1, put (p.run desk t).2) := by
  induction p generalizing t with
  | done r => rfl
  | ask call next ih =>
    simp only [atDesk, Program.run, answered]
    rcases desk call t with ⟨_ | a, t'⟩
    · rfl
    · exact ih a t'

/-! ## Turns by a clock -/

/-- **Turns by a clock**, as one program; there is no outcome if the clock stops before the feed
does. -/
def loop : List Instant → Program Question Question.Answer (Option Outcome)
  | [] => .done none
  | now :: clock => (turn now).bind fun
    | .committed => loop clock
    | .closed => .done (some (.ok ()))
    | .failed e => .done (some (.error e))

/-- **The reader runs its turns** one after another. -/
theorem run_eq_loop {σ : Type} (answer : (q : Question) → σ → Option q.Answer × σ)
    (clock : List Instant) (s : σ) :
    run (fun _ => answer) clock s =
      (((loop clock).run answer s).1.join, ((loop clock).run answer s).2) := by
  induction clock generalizing s with
  | nil => rfl
  | cons now clock ih =>
    rw [loop, Program.run_bind, run]
    cases (turn now).run answer s with
    | mk turn s =>
      cases turn with
      | none => rfl
      | some turn =>
        cases turn with
        | committed => exact ih s
        | closed => rfl
        | failed e => rfl

/-! ## The law of a reader -/

/-- **What a reader may ask**: the next message at any time, what the desk asks about the event of
the message that was received last, and to commit that message once it was handled. -/
inductive Reads : List (Exchange Question Question.Answer) → Question → Prop
  | receive {past : List (Exchange Question Question.Answer)} : Reads past .receive
  | desk {earlier : List (Exchange Question Question.Answer)} {m : Message}
    {event : AssembledEvent} {now : Instant} {calls : List (Exchange Call Call.Answer)}
    {call : Call} {next : call.Answer → Action Unit} (decoded : m.decodeAssembled = .ok event)
    (reaches : (Desk.assemble event.orderId now).Reaches calls (.ask call next)) :
    Reads (earlier ++ received m :: calls.map atReader) (.desk call)
  | commit {m : Message} {event : AssembledEvent}
    {earlier past : List (Exchange Question Question.Answer)} {result : Except DeskError Unit}
    (answered : Handled m event earlier result past) (settled : handled event result = .ok ()) :
    Reads past (.commit m)

/-- **The law of a reader.** If it ends because of the desk, the desk has answered just that to the
event of a message. -/
def law : Law Question Question.Answer (Option Outcome) where
  asks := Reads
  ends past outcome := ∀ id e, outcome = some (.error (.handler id e)) →
    ∃ m event earlier, Handled m event earlier (.error e) past ∧
      handled event (.error e) = .error (.handler id e)

variable {past earlier : List (Exchange Question Question.Answer)} {m : Message}
  {event : AssembledEvent} {now : Instant}

/-- Whatever is no failure of the desk may be told at any time. -/
theorem keeps_done {outcome : Option Outcome}
    (h : ∀ id e, outcome ≠ some (.error (.handler id e))) :
    (Program.done outcome : Program Question Question.Answer _).Keeps law past :=
  fun id e ho => absurd ho (h id e)

/-- **At the desk** a reader keeps its law, if it does so with each result of the desk. -/
theorem keeps_atDesk (earlier : List (Exchange Question Question.Answer))
    {k : Except DeskError Unit → Program Question Question.Answer (Option Outcome)}
    (decoded : m.decodeAssembled = .ok event)
    (ends : ∀ {result past}, Handled m event earlier result past → (k result).Keeps law past)
    {p : Action Unit} {calls : List (Exchange Call Call.Answer)}
    (h : (Desk.assemble event.orderId now).Reaches calls p) :
    ((atDesk p).bind k).Keeps law (earlier ++ received m :: calls.map atReader) := by
  induction p generalizing calls with
  | done result => exact ends ⟨decoded, now, calls, h, rfl⟩
  | ask call next ih =>
    refine ⟨.desk decoded h, fun a => ?_⟩
    have := ih a (h.snoc a)
    simpa [atReader] using this

/-- **A reader keeps its law**, whatever it did before and whatever it is answered. -/
theorem keeps_loop (clock : List Instant) (past : List (Exchange Question Question.Answer)) :
    (loop clock).Keeps law past := by
  induction clock generalizing past with
  | nil => exact keeps_done (by simp)
  | cons now clock ih =>
    refine ⟨.receive, ?_⟩
    rintro (e | - | m)
    · exact keeps_done (by simp)
    · exact keeps_done (by simp)
    · simp only [handle]
      cases hm : m.decodeAssembled with
      | error e =>
        refine keeps_done fun id e' he => ?_
        obtain rfl : e = .handler id e' := by simpa using he
        exact decodeAssembled_ne_handler m id e' hm
      | ok event =>
        rw [Program.bind_assoc]
        refine keeps_atDesk past hm (fun {result past} answered => ?_) (.here _)
        cases hr : handled event result with
        | error e =>
          intro id e' he
          obtain rfl : e = .handler id e' := by simpa using he
          obtain rfl := handled_eq_handler hr
          exact ⟨m, event, _, answered, hr⟩
        | ok _ =>
          refine ⟨.commit answered hr, ?_⟩
          rintro (e | -)
          · exact keeps_done (by simp)
          · exact ih _

/-! ## News -/

/-- The event of the news. -/
def newsEvent : AssembledEvent := ⟨.nil, .nil, "u-1", 3⟩

/-- The news that the order with the nil id is assembled. -/
def news (offset : Int) : Message :=
  ⟨"order.assembled", 0, offset, none, Text.Utf8.encode newsEvent.toJson.renderChars⟩

theorem decode_news (offset : Int) : (news offset).decodeAssembled = .ok newsEvent := by
  have hread : AssembledEvent.shape.readBytes (Text.Utf8.encode newsEvent.toJson.renderChars) =
      .ok newsEvent := by decide +kernel
  simp only [Message.decodeAssembled, news, hread]

end OrderDesk.Consumer
