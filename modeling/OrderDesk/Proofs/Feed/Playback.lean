import OrderDesk.Proofs.Feed.Handling
import OrderDesk.Proofs.Traffic.Noted

/-!
# A reader commits what it has handled, and nothing behind it

A source plays back a script: it loses messages or delivers them, and each commit takes effect or
fails; behind the script the feed is closed. The desk answers as it likes, or not at all. All that a
reader asks falls into blocks, one for each message that it committed, in the order of the script,
and one more for what it stopped at.

## Main definitions

* `Delivery`, `Playback`: the script of a source, with a desk behind the reader
* `Commits`: the exchanges for a message that is committed
* `Stops`: the exchanges at the end, and the outcome

## Main results

* `turn_playback`: a turn commits the next message, or the reader stops
* `committed_prefix`: a reader commits just the handled messages in front of what it stops at
-/

namespace OrderDesk.Consumer

/-- **What a source does next**: it fails, or delivers a message whose commit has an answer. -/
inductive Delivery where
  | lost (reason : SourceError)
  | message (m : Message) (verdict : Except SourceError Unit)

/-- **A source that plays back a script**, with the answer to the commit of the last message, and
the state of whoever answers the desk. -/
structure Playback (τ : Type) where
  script : List Delivery
  verdict : Except SourceError Unit
  desk : τ

/-- **The answers to a reader**; behind the script the feed is closed. -/
def Playback.answer {τ : Type} (desk : (call : Call) → τ → Option call.Answer × τ) :
    (q : Question) → Playback τ → Option q.Answer × Playback τ
  | .receive, p =>
    match p.script with
    | [] => (some (.ok none), p)
    | .lost reason :: script => (some (.error reason), { p with script })
    | .message m verdict :: script => (some (.ok (some m)), { p with script, verdict })
  | .commit _, p => (some p.verdict, p)
  | .desk call, p => ((desk call p.desk).1, { p with desk := (desk call p.desk).2 })

/-- The feed was closed. -/
def closed : Exchange Question Question.Answer :=
  ⟨.receive, (.ok none : Except SourceError (Option Message))⟩

/-- No message was received. -/
def notReceived (reason : SourceError) : Exchange Question Question.Answer :=
  ⟨.receive, (.error reason : Except SourceError (Option Message))⟩

/-- The commit of a message was answered. -/
def committing (m : Message) (verdict : Except SourceError Unit) :
    Exchange Question Question.Answer :=
  ⟨.commit m, verdict⟩

/-- **A message is committed**: it is received, its event is brought to the desk, the desk succeeds
or says that the order cannot be assembled, and only then the message is committed. -/
inductive Commits (m : Message) : List (Exchange Question Question.Answer) → Prop
  | intro {event : AssembledEvent} {result : Except DeskError Unit}
    {past : List (Exchange Question Question.Answer)} (answered : Handled m event [] result past)
    (settled : result = .ok () ∨ ∃ id status, result = .error (.invalidStatus id status)) :
    Commits m (past ++ [committing m (.ok ())])

variable {τ : Type} (desk : (call : Call) → τ → Option call.Answer × τ)

/-- **A reader stops** at what remains of the script, by its last exchanges and with an outcome. It
has none if the desk was left without an answer. -/
inductive Stops :
    List Delivery → List (Exchange Question Question.Answer) → Option Outcome → Prop
  | closed : Stops [] [closed] (some (.ok ()))
  | lost (reason : SourceError) (rest : List Delivery) :
    Stops (.lost reason :: rest) [notReceived reason] (some (.error (.source reason)))
  | undecodable {m : Message} {reason : Json.Error}
    (unread : AssembledEvent.shape.readBytes m.payload = .error reason)
    (verdict : Except SourceError Unit) (rest : List Delivery) :
    Stops (.message m verdict :: rest) [received m]
      (some (.error (.decode m.topic m.partition m.offset reason)))
  | unhandled {m : Message} {event : AssembledEvent} {e : DeskError}
    {past : List (Exchange Question Question.Answer)}
    (answered : Handled m event [] (.error e) past)
    (other : ∀ id status, e ≠ .invalidStatus id status) (verdict : Except SourceError Unit)
    (rest : List Delivery) :
    Stops (.message m verdict :: rest) past (some (.error (.handler event.orderId e)))
  | uncommitted {m : Message} {event : AssembledEvent} {result : Except DeskError Unit}
    {past : List (Exchange Question Question.Answer)} (answered : Handled m event [] result past)
    (settled : result = .ok () ∨ ∃ id status, result = .error (.invalidStatus id status))
    (reason : SourceError) (rest : List Delivery) :
    Stops (.message m (.error reason) :: rest) (past ++ [committing m (.error reason)])
      (some (.error (.source reason)))
  | unanswered {m : Message} {event : AssembledEvent} {now : Instant}
    {calls : List (Exchange Call Call.Answer)} {call : Call} {next : call.Answer → Action Unit}
    (decoded : m.decodeAssembled = .ok event)
    (reaches : (Desk.assemble event.orderId now).Reaches calls (.ask call next))
    (silent : ∃ t, (desk call t).1 = none) (verdict : Except SourceError Unit)
    (rest : List Delivery) :
    Stops (.message m verdict :: rest) (received m :: calls.map atReader) none

variable {desk} in
/-- **A reader ends well** exactly if nothing remains of the script. -/
theorem Stops.ok_iff {rest : List Delivery} {last : List (Exchange Question Question.Answer)}
    {outcome : Option Outcome} (h : Stops desk rest last outcome) :
    outcome = some (.ok ()) ↔ rest = [] := by
  cases h <;> simp

/-! ## Turns -/

/-- A turn that ends the reader. -/
def Turn.ofOutcome : Outcome → Turn
  | .ok _ => .closed
  | .error e => .failed e

/-- **A reader ends with the turn that ends it.** -/
theorem run_of_ended {σ : Type} {answer : Instant → (q : Question) → σ → Option q.Answer × σ}
    {now : Instant} {clock : List Instant} {s s' : σ} {outcome : Option Outcome}
    (h : (turn now).run (answer now) s = (outcome.map Turn.ofOutcome, s')) :
    run answer (now :: clock) s = (outcome, s') := by
  rw [run, h]
  rcases outcome with - | (e | -) <;> rfl

/-- What the desk had, noted down by its reader. -/
def Playback.noting (p : Playback τ) (past : List (Exchange Question Question.Answer)) :
    τ × List (Exchange Call Call.Answer) → Playback τ × List (Exchange Question Question.Answer)
  | (t, calls) => ({ p with desk := t }, past ++ calls.map atReader)

theorem noted_desk (p : Playback τ) (past : List (Exchange Question Question.Answer)) (call : Call)
    (x : τ × List (Exchange Call Call.Answer)) :
    Program.noted (Playback.answer desk) (.desk call) (p.noting past x) =
      ((Program.noted desk call x).1, p.noting past (Program.noted desk call x).2) := by
  obtain ⟨t, calls⟩ := x
  simp only [Program.noted, Playback.answer, Playback.noting]
  rcases desk call t with ⟨_ | a, t'⟩
  · rfl
  · simp only [List.map_append, List.append_assoc]
    rfl

/-- **The desk asks on behalf of a reader**, and what it had is noted down. It comes to its end, or
is left without an answer. -/
theorem run_atDesk_noted (action : Action Unit) (p : Playback τ)
    (past : List (Exchange Question Question.Answer)) :
    ∃ calls t,
      (∃ result, (atDesk action).run (Program.noted (Playback.answer desk)) (p, past) =
          (some result, { p with desk := t }, past ++ calls.map atReader) ∧
        action.Reaches calls (.done result)) ∨
      ((atDesk action).run (Program.noted (Playback.answer desk)) (p, past) =
          (none, { p with desk := t }, past ++ calls.map atReader) ∧
        ∃ call next, action.Reaches calls (.ask call next) ∧ ∃ t, (desk call t).1 = none) := by
  have hrun := run_atDesk (p.noting past) (noted_desk desk p past) action (p.desk, [])
  have hstart : p.noting past (p.desk, []) = (p, past) := by
    rw [Playback.noting, List.map_nil, List.append_nil]
  rw [hstart] at hrun
  obtain ⟨calls, t, hdesk⟩ := Program.run_noted desk action p.desk []
  refine ⟨calls, t, ?_⟩
  rcases hdesk with ⟨result, hresult, hreaches⟩ | ⟨hnone, call, next, t', hreaches, silent⟩
  · rw [hresult, List.nil_append] at hrun
    exact .inl ⟨result, hrun, hreaches⟩
  · rw [hnone, List.nil_append] at hrun
    exact .inr ⟨hrun, call, next, hreaches, t', silent⟩

/-- A message that cannot be read is named by where it lay. -/
theorem unread_of_decodeAssembled {m : Message} {reason : FeedError}
    (h : m.decodeAssembled = .error reason) :
    ∃ e, AssembledEvent.shape.readBytes m.payload = .error e ∧
      reason = .decode m.topic m.partition m.offset e := by
  rw [Message.decodeAssembled] at h
  split at h
  · cases h
  · rename_i e hread
    obtain rfl := Except.error.inj h
    exact ⟨e, hread, rfl⟩

/-- **A commit** has the answer that the script has for it. -/
theorem run_commit_noted (m : Message) (p : Playback τ)
    (past : List (Exchange Question Question.Answer)) :
    (commit m).run (Program.noted (Playback.answer desk)) (p, past) =
      (some (match p.verdict with
        | .ok _ => .committed
        | .error reason => .failed (.source reason)), p, past ++ [committing m p.verdict]) := by
  obtain ⟨script, reason | _, t⟩ := p <;> rfl

/-- **A turn** commits the next message, or the reader stops. -/
theorem turn_playback (now : Instant) (p : Playback τ)
    (past : List (Exchange Question Question.Answer)) :
    (∃ m rest t xs, p.script = .message m (.ok ()) :: rest ∧ Commits m xs ∧
      (turn now).run (Program.noted (Playback.answer desk)) (p, past) =
        (some .committed, ⟨rest, .ok (), t⟩, past ++ xs)) ∨
    ∃ p' xs outcome, Stops desk p.script xs outcome ∧
      (turn now).run (Program.noted (Playback.answer desk)) (p, past) =
        (outcome.map Turn.ofOutcome, p', past ++ xs) := by
  obtain ⟨script, verdict, t⟩ := p
  rcases script with - | ⟨reason | ⟨m, verdict'⟩, rest⟩
  · exact .inr ⟨_, _, _, .closed, rfl⟩
  · exact .inr ⟨_, _, _, .lost reason rest, rfl⟩
  have hturn : (turn now).run (Program.noted (Playback.answer desk))
        (⟨.message m verdict' :: rest, verdict, t⟩, past) =
      (handle m now).run (Program.noted (Playback.answer desk))
        (⟨rest, verdict', t⟩, past ++ [received m]) := rfl
  rw [hturn, handle]
  cases hm : m.decodeAssembled with
  | error reason =>
    obtain ⟨e, unread, rfl⟩ := unread_of_decodeAssembled hm
    exact .inr ⟨_, _, _, .undecodable unread verdict' rest, rfl⟩
  | ok event =>
    simp only [Program.run_bind]
    obtain ⟨calls, t', ⟨result, hrun, hreaches⟩ | ⟨hrun, call, next, hreaches, silent⟩⟩ :=
      run_atDesk_noted desk (Desk.assemble event.orderId now) ⟨rest, verdict', t⟩
        (past ++ [received m])
    · have answered : Handled m event [] result (received m :: calls.map atReader) :=
        ⟨hm, now, calls, hreaches, rfl⟩
      rw [hrun, List.append_assoc]
      simp only
      cases hhandled : handled event result with
      | error reason =>
        obtain ⟨e, rfl, other, rfl⟩ := handled_eq_error_iff.mp hhandled
        exact .inr ⟨_, _, _, .unhandled answered other verdict' rest, rfl⟩
      | ok _ =>
        have settled := handled_eq_ok_iff.mp hhandled
        simp only [run_commit_noted, List.append_assoc]
        rcases verdict' with reason | ⟨⟩
        · exact .inr ⟨_, _, _, .uncommitted answered settled reason rest, rfl⟩
        · exact .inl ⟨m, rest, t', _, rfl, .intro answered settled, rfl⟩
    · rw [hrun, List.append_assoc]
      exact .inr ⟨_, _, _, .unanswered hm hreaches silent verdict' rest, rfl⟩

/-- **A reader goes on** over the messages that it commits, up to what it stops at. Each turn takes
one delivery off the script, so the clock does not stop before the script ends. -/
theorem run_playback (clock : List Instant) (p : Playback τ)
    (enough : p.script.length < clock.length)
    (past : List (Exchange Question Question.Answer)) :
    ∃ messages rest log last outcome p',
      p.script = messages.map (fun m => .message m (.ok ())) ++ rest ∧
      run (fun _ => Program.noted (Playback.answer desk)) clock (p, past) =
        (outcome, p', past ++ (log.flatten ++ last)) ∧
      List.Forall₂ Commits messages log ∧ Stops desk rest last outcome := by
  induction clock generalizing p past with
  | nil => exact absurd enough (Nat.not_lt_zero _)
  | cons now clock ih =>
    rcases turn_playback desk now p past with
      ⟨m, rest, t, xs, hscript, commits, hturn⟩ | ⟨p', last, outcome, stops, hturn⟩
    · -- the message is the first of those that are committed
      rw [hscript, List.length_cons, List.length_cons] at enough
      obtain ⟨messages, rest', log, last, outcome, p', hrest, hrun, all, stops⟩ :=
        ih ⟨rest, .ok (), t⟩ (Nat.lt_of_succ_lt_succ enough) (past ++ xs)
      refine ⟨m :: messages, rest', xs :: log, last, outcome, p', ?_, ?_, .cons commits all, stops⟩
      · rw [hscript, List.map_cons, List.cons_append, ← hrest]
      · rw [run, hturn, List.flatten_cons, List.append_assoc xs, ← List.append_assoc past]
        exact hrun
    · refine ⟨[], p.script, [], last, outcome, p', rfl, ?_, .nil, stops⟩
      rw [List.flatten_nil, List.nil_append]
      exact run_of_ended hturn

/-- **A reader commits just the handled messages** in front of what it stops at. For every script,
by every clock and whatever the desk is answered, the script begins with messages whose commits
take effect; all exchanges of the reader are those that commit these messages, one after the other,
and those by which it stops at what remains of the script. It ends well exactly if nothing remains. -/
theorem committed_prefix (script : List Delivery) (verdict : Except SourceError Unit) (t : τ)
    {clock : List Instant} (enough : script.length < clock.length) :
    ∃ messages rest log last outcome p',
      script = messages.map (fun m => .message m (.ok ())) ++ rest ∧
      run (fun _ => Program.noted (Playback.answer desk)) clock (⟨script, verdict, t⟩, []) =
        (outcome, p', log.flatten ++ last) ∧
      List.Forall₂ Commits messages log ∧ Stops desk rest last outcome ∧
      (outcome = some (.ok ()) ↔ rest = []) := by
  obtain ⟨messages, rest, log, last, outcome, p', hscript, hrun, all, stops⟩ :=
    run_playback desk clock ⟨script, verdict, t⟩ enough []
  exact ⟨messages, rest, log, last, outcome, p', hscript, hrun, all, stops, stops.ok_iff⟩

/-- A desk that finds every order assembled already. -/
def atRest : (call : Call) → Unit → Option call.Answer × Unit
  | .load id, _ =>
    (some (.ok { Order.placed id .epoch "u-1" ["p-1"] 1 with status := .assembled }), ())
  | .update _ _, _ => (some (.ok ()), ())
  | .create _, _ | .listParts _, _ | .charge _ _ _, _ | .publish _, _ | .count _, _ => (none, ())

/-- News, a failure of the source, and more news. -/
def interrupted : List Delivery :=
  [.message (news 0) (.ok ()), .lost (.receive "gone"), .message (news 1) (.ok ())]

/-- A clock with more instants than there are deliveries. -/
def ticks : List Instant :=
  [.epoch, .epoch, { Instant.epoch with seconds := 1 }, { Instant.epoch with seconds := 2 }]

theorem committed_prefix_interrupted :
    interrupted.length < ticks.length ∧ ∃ messages rest log last p',
      interrupted = messages.map (fun m => .message m (.ok ())) ++ rest ∧
      run (fun _ => Program.noted (Playback.answer atRest)) ticks (⟨interrupted, .ok (), ()⟩, []) =
        (some (.error (.source (.receive "gone"))), p', log.flatten ++ last) ∧
      List.Forall₂ Commits messages log ∧ rest ≠ [] := by
  have enough : interrupted.length < ticks.length := by decide
  refine ⟨enough, ?_⟩
  obtain ⟨messages, rest, log, last, outcome, p', hscript, hrun, all, -, hok⟩ :=
    committed_prefix atRest interrupted (.ok ()) () enough
  have hgone : (run (fun _ => Program.noted (Playback.answer atRest)) ticks
      (⟨interrupted, .ok (), ()⟩, [])).1 = some (.error (.source (.receive "gone"))) := by
    simp [run, ticks, turn, handle, Program.run, Program.noted, Playback.answer, interrupted,
      decode_news, atDesk, Desk.assemble, atRest, Desk.reassert, handled, commit]
  rw [hrun] at hgone
  obtain rfl : outcome = _ := hgone
  exact ⟨messages, rest, log, last, p', hscript, hrun, all, fun h => by cases hok.mpr h⟩

end OrderDesk.Consumer
