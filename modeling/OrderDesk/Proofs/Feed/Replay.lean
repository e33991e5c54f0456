import OrderDesk.Broker.Source
import OrderDesk.Feed.Supervisor
import OrderDesk.Proofs.Feed.Handling

/-!
# A partition is read in order, and to its end

Sources replay one partition from the committed position, and the supervisor makes a new one
whenever a reader stops. Making a source may fail, and so may every question that a reader asks; a
commit may fail even though it took effect. What befalls the questions is a script, one fate for
each; where the script ends nothing happens any more, so that every state on the way is the end of
some script.

## Main definitions

* `Partition`: the messages of a partition
* `Fate`, `Replay`: what befalls a question, and the reading of a partition so far
* `Replay.answer`, `Replay.attempt`, `replay`: the supervisor over a partition
* `HandledIn`, `Stuck`: what has become of a message
* `Replay.At`: the messages before the position, and those from there on

## Main results

* `turn_at`, `run_at`, `replay_at`: a turn, a reader and the supervisor keep to the partition
* `replayed_in_order`: every partition is read at least once, in order, and to its end
-/

namespace OrderDesk

open Consumer (Question received message? atReader Handled atDesk handled)

/-- **The messages of a partition**, by ascending offsets in 64 bits. -/
structure Partition where
  messages : List Message
  ascending : messages.Pairwise fun m m' => m.offset < m'.offset
  offsets : ∀ m ∈ messages, 0 ≤ m.offset ∧ m.offset ≤ Int64.maxValue.toInt

/-- The position behind some messages. -/
def Partition.behind (messages : List Message) : Int :=
  (messages.getLast?.map (·.offset + 1)).getD 0

/-- **What becomes of a commit**: it takes effect, it is lost, or it takes effect and fails. -/
inductive Landing where
  | lands
  | lost (reason : SourceError)
  | unheard (reason : SourceError)

/-- **What befalls a question** of the supervisor or of a reader, whichever it is. -/
structure Fate where
  source : Option String
  receive : Option SourceError
  commit : Landing
  desk : (call : Call) → call.Answer

/-- **The reading of a partition so far**: the committed position, what the current source has still
to deliver, the exchanges of all readers, and what will befall the next questions. -/
structure Replay where
  position : Int
  pending : List Message
  history : List (Exchange Question Question.Answer)
  script : List Fate

namespace Replay

/-- The answer to a question of a reader, by its fate. -/
def respond (r : Replay) (fate : Fate) : (q : Question) → q.Answer × Replay
  | .receive =>
    match fate.receive, r.pending with
    | some e, _ => (.error e, r)
    | none, [] => (.ok none, r)
    | none, m :: rest => (.ok (some m), { r with pending := rest })
  | .commit m =>
    match Broker.positionAfter m, fate.commit with
    | .error e, _ => (.error e, r)
    | .ok position, .lands => (.ok (), { r with position })
    | .ok _, .lost e => (.error e, r)
    | .ok position, .unheard e => (.error e, { r with position })
  | .desk call => (fate.desk call, r)

/-- **The answers to a reader.** -/
def answer (r : Replay) (q : Question) : Option q.Answer × Replay :=
  match r.script with
  | [] => (none, r)
  | fate :: script =>
    (some (r.respond fate q).1,
      { (r.respond fate q).2 with history := r.history ++ [⟨q, (r.respond fate q).1⟩], script })

/-- The messages from the committed position on. -/
def remaining (log : Partition) (r : Replay) : List Message :=
  log.messages.filter fun m => r.position ≤ m.offset

/-- **An attempt**: a source that replays the partition from the committed position, if one can be
made, and a reader by the clock of the attempt. -/
def attempt (log : Partition) (clock : Nat → List Instant) (number : Nat) (r : Replay) :
    Option Attempt × Replay :=
  match r.script with
  | [] => (none, r)
  | fate :: script =>
    match fate.source with
    | some reason => (some (.noSource reason), { r with script })
    | none =>
      let (outcome, r) := Consumer.run (fun _ q r => r.answer q) (clock number)
        { r with pending := r.remaining log, script }
      (outcome.map .ended, r)

end Replay

/-- **The supervisor over a partition**, from its beginning. -/
def replay (log : Partition) (clock : Nat → List Instant) (attempts : Nat) (script : List Fate) :
    Option Unit × Replay :=
  Supervisor.run (Replay.attempt log clock) 1 attempts ⟨0, [], [], script⟩

/-! ## What becomes of a message -/

/-- **A message has been handled**: it was decoded, and the desk has answered to its event that the
order is assembled, or that it cannot be. -/
def HandledIn (m : Message) (xs : List (Exchange Question Question.Answer)) : Prop :=
  ∃ event earlier result past, past <+: xs ∧ Handled m event earlier result past ∧
    (result = .ok () ∨ ∃ id status, result = .error (.invalidStatus id status))

/-- **A message is stuck**: it cannot be decoded, or the desk has answered to its event with other
failures only. -/
def Stuck (m : Message) (xs : List (Exchange Question Question.Answer)) : Prop :=
  (∃ e, m.decodeAssembled = .error e) ∨
    ∀ event earlier result past, past <+: xs → Handled m event earlier result past →
      ∃ e, result = .error e ∧ ∀ id status, e ≠ .invalidStatus id status

section Messages

variable {m : Message} {xs ys : List (Exchange Question Question.Answer)}

theorem HandledIn.mono (h : HandledIn m xs) (hp : xs <+: ys) : HandledIn m ys := by
  obtain ⟨event, earlier, result, past, hpast, hrest⟩ := h
  exact ⟨event, earlier, result, past, hpast.trans hp, hrest⟩

theorem Stuck.not_handledIn (h : Stuck m xs) : ¬ HandledIn m xs := by
  rintro ⟨event, earlier, result, past, hpast, handled, hresult⟩
  rcases h with ⟨e, he⟩ | h
  · rw [handled.decoded] at he
    cases he
  · obtain ⟨e, rfl, hother⟩ := h event earlier result past hpast handled
    rcases hresult with hresult | ⟨id, status, hresult⟩
    · cases hresult
    · exact hother id status (Except.error.inj hresult)

/-- Whoever has handled a message has received it before. -/
theorem HandledIn.received (h : HandledIn m xs) :
    ∃ before after, xs = before ++ Consumer.received m :: after := by
  obtain ⟨event, earlier, result, past, ⟨rest, rfl⟩, ⟨-, now, calls, -, rfl⟩, -⟩ := h
  exact ⟨earlier, calls.map atReader ++ rest, by simp⟩

end Messages

/-! ## Where the reading stands -/

namespace Partition

variable {log : Partition} {done todo : List Message} {m : Message}

theorem behind_concat (done : List Message) (m : Message) :
    behind (done ++ [m]) = m.offset + 1 := by
  simp [behind]

theorem lt_behind (h : log.messages = done ++ todo) (hm : m ∈ done) : m.offset < behind done := by
  rcases List.eq_nil_or_concat done with rfl | ⟨init, last, rfl⟩
  · cases hm
  · have hpair := log.ascending
    rw [List.concat_eq_append] at h hm ⊢
    rw [h, List.pairwise_append, List.pairwise_append] at hpair
    rw [behind_concat]
    rcases List.mem_append.mp hm with hm | hm
    · have := hpair.1.2.2 m hm last (by simp)
      omega
    · obtain rfl := List.mem_singleton.mp hm
      omega

theorem behind_le (h : log.messages = done ++ todo) (hm : m ∈ todo) : behind done ≤ m.offset := by
  rcases List.eq_nil_or_concat done with rfl | ⟨init, last, rfl⟩
  · exact (log.offsets m (by simp [h, hm])).1
  · have hpair := log.ascending
    rw [List.concat_eq_append] at h ⊢
    rw [h, List.pairwise_append] at hpair
    rw [behind_concat]
    have := hpair.2.2 last (by simp) m hm
    omega

/-- From the position behind some messages on, the others remain. -/
theorem remaining_eq (h : log.messages = done ++ todo) {r : Replay}
    (position : r.position = behind done) : r.remaining log = todo := by
  have hdone : done.filter (fun m => r.position ≤ m.offset) = [] := by
    refine List.filter_eq_nil_iff.mpr fun m hm => ?_
    have := lt_behind h hm
    simpa [position] using this
  have htodo : todo.filter (fun m => r.position ≤ m.offset) = todo := by
    refine List.filter_eq_self.mpr fun m hm => ?_
    have := behind_le h hm
    simpa [position] using this
  rw [Replay.remaining, h, List.filter_append, hdone, htodo, List.nil_append]

/-- The position that is committed for a message of the partition is the one behind it. -/
theorem offset_of_positionAfter (hm : m ∈ log.messages) {position : Int}
    (h : Broker.positionAfter m = .ok position) : position = m.offset + 1 := by
  obtain ⟨hlow, hle⟩ := log.offsets m hm
  have hhigh : m.offset < 2 ^ 63 := Int.lt_of_le_of_lt hle (by decide)
  have hnext : Broker.nextOffset m = (m.offset + 1).bmod (2 ^ 64) := by
    rw [Broker.nextOffset, Int64.toInt_add, Int64.toInt_ofInt_of_le (by omega) hhigh]
    rfl
  unfold Broker.positionAfter at h
  split at h
  · cases h
  · rename_i hnonneg
    obtain rfl := Except.ok.inj h
    by_cases hlast : m.offset + 1 < 2 ^ 63
    · rw [hnext]
      exact Int.bmod_eq_of_le (by omega) (by omega)
    · -- the largest offset has no next one
      have heq : m.offset + 1 = 2 ^ 63 := by omega
      rw [hnext, heq] at hnonneg
      exact absurd (by decide) hnonneg

end Partition

namespace Replay

/-- **Where a reading stands** in its partition: everything before the position was handled, and
whenever a message was received, those before it had been handled. -/
structure At (log : Partition) (r : Replay) (done todo : List Message) : Prop where
  split : log.messages = done ++ todo
  position : r.position = Partition.behind done
  handled : ∀ m ∈ done, HandledIn m r.history
  ordered : ∀ {before m after}, r.history = before ++ received m :: after →
    m ∈ log.messages ∧ ∀ m' ∈ log.messages, m'.offset < m.offset → HandledIn m' before

theorem eq_of_append {α : Type} {xs ys before after : List α} {x : α}
    (h : xs ++ ys = before ++ x :: after) (hx : x ∉ ys) : ∃ after', xs = before ++ x :: after' := by
  rcases List.append_eq_append_iff.mp h with ⟨mid, -, hys⟩ | ⟨mid, rfl, hys⟩
  · refine absurd ?_ hx
    simp [hys]
  · rcases mid with - | ⟨y, mid⟩
    · obtain rfl : x :: after = ys := hys
      exact absurd List.mem_cons_self hx
    · obtain ⟨rfl, -⟩ := List.cons.inj hys
      exact ⟨mid, rfl⟩

variable {log : Partition} {r r' : Replay} {done todo : List Message} {m : Message}

/-- The reading stands where it did if nothing was received and the position is the same. -/
theorem At.same (h : r.At log done todo) {xs : List (Exchange Question Question.Answer)}
    (hist : r'.history = r.history ++ xs) (hx : ∀ x ∈ xs, message? x = none)
    (position : r'.position = r.position) : r'.At log done todo where
  split := h.split
  position := position.trans h.position
  handled m hm := (h.handled m hm).mono ⟨xs, hist.symm⟩
  ordered hr := by
    rw [hist] at hr
    obtain ⟨after, hr⟩ := eq_of_append hr (Consumer.received_not_mem hx _)
    exact h.ordered hr

/-- **The next message is received** when all before it have been handled. -/
theorem At.receive (h : r.At log done (m :: todo)) (hist : r'.history = r.history ++ [received m])
    (position : r'.position = r.position) : r'.At log done (m :: todo) where
  split := h.split
  position := position.trans h.position
  handled m' hm' := (h.handled m' hm').mono ⟨[received m], hist.symm⟩
  ordered := by
    intro before u after hr
    rw [hist] at hr
    rcases List.eq_nil_or_concat after with rfl | ⟨after, x, rfl⟩
    · obtain ⟨rfl, hu⟩ := List.append_inj' hr rfl
      obtain rfl := Consumer.received_inj (List.singleton_inj.mp hu)
      refine ⟨by simp [h.split], fun m' hm' hlt => ?_⟩
      rw [h.split] at hm'
      rcases List.mem_append.mp hm' with hm' | hm'
      · exact h.handled m' hm'
      · have hpair := log.ascending
        rw [h.split, List.pairwise_append] at hpair
        rcases List.mem_cons.mp hm' with rfl | hm'
        · exact absurd hlt (Int.lt_irrefl _)
        · exact absurd hlt (Int.lt_asymm (List.rel_of_pairwise_cons hpair.2.1 hm'))
    · rw [List.concat_eq_append, ← List.cons_append, ← List.append_assoc] at hr
      exact h.ordered (List.append_inj' hr rfl).1

/-- **A commit takes effect** once the message was handled. -/
theorem At.commit (h : r.At log done (m :: todo)) (hm : HandledIn m r.history)
    {x : Exchange Question Question.Answer} (hist : r'.history = r.history ++ [x])
    (hx : message? x = none) (position : r'.position = m.offset + 1) :
    r'.At log (done ++ [m]) todo where
  split := by simp [h.split]
  position := by rw [position, Partition.behind_concat]
  handled m' hm' := by
    have hp : r.history <+: r'.history := ⟨[x], hist.symm⟩
    rcases List.mem_append.mp hm' with hm' | hm'
    · exact (h.handled m' hm').mono hp
    · obtain rfl := List.mem_singleton.mp hm'
      exact hm.mono hp
  ordered hr := by
    rw [hist] at hr
    obtain ⟨after, hr⟩ := eq_of_append hr (Consumer.received_not_mem (by simpa using hx) _)
    exact h.ordered hr

/-! ## One question -/

/-- **A question is answered** by a fate. -/
structure Answers (r : Replay) (fate : Fate) (q : Question) (r' : Replay) : Prop where
  answer : r.answer q = (some (r.respond fate q).1, r')
  history : r'.history = r.history ++ [⟨q, (r.respond fate q).1⟩]
  position : r'.position = (r.respond fate q).2.position
  pending : r'.pending = (r.respond fate q).2.pending

/-- A question is answered, or nothing happens any more. -/
theorem answers (r : Replay) (q : Question) :
    r.answer q = (none, r) ∨ ∃ fate r', r.Answers fate q r' := by
  cases h : r.script with
  | nil => exact .inl (by simp only [answer, h])
  | cons fate script =>
    refine .inr ⟨fate, { (r.respond fate q).2 with
      history := r.history ++ [⟨q, (r.respond fate q).1⟩], script }, ?_, rfl, rfl, rfl⟩
    simp only [answer, h]

/-- **A receipt** fails, or tells that nothing remains, or is the next message. -/
theorem respond_receive (r : Replay) (fate : Fate) :
    (r.respond fate .receive).2.position = r.position ∧
      ((∃ e, (r.respond fate .receive).1 = .error e) ∨
        ((r.respond fate .receive).1 = .ok none ∧ r.pending = []) ∨
        ∃ m, (r.respond fate .receive).1 = .ok (some m) ∧
          r.pending = m :: (r.respond fate .receive).2.pending) := by
  simp only [respond]
  split
  · exact ⟨rfl, .inl ⟨_, rfl⟩⟩
  · rename_i hp
    exact ⟨rfl, .inr (.inl ⟨rfl, hp⟩)⟩
  · rename_i hp
    exact ⟨rfl, .inr (.inr ⟨_, rfl, hp⟩)⟩

/-- **A commit** fails without effect, or takes effect, whatever is told. -/
theorem respond_commit (r : Replay) (fate : Fate) (m : Message) :
    (r.respond fate (.commit m)).2.pending = r.pending ∧
      ((r.respond fate (.commit m)).2.position = r.position ∧
          (∃ e, (r.respond fate (.commit m)).1 = .error e) ∨
        Broker.positionAfter m = .ok (r.respond fate (.commit m)).2.position) := by
  simp only [respond]
  split
  · exact ⟨rfl, .inl ⟨rfl, _, rfl⟩⟩
  · rename_i hp _
    exact ⟨rfl, .inr hp⟩
  · exact ⟨rfl, .inl ⟨rfl, _, rfl⟩⟩
  · rename_i hp _
    exact ⟨rfl, .inr hp⟩

variable (now : Instant)

/-- **The desk asks on behalf of a reader.** Neither the position nor the source changes, and if it
comes to its end it does so by the exchanges that were had. -/
theorem run_atDesk {S : Type} (p : Action Unit)
    (k : Except DeskError Unit → Program Question Question.Answer S) (r : Replay) :
    ∃ calls r', r'.history = r.history ++ calls.map atReader ∧ r'.position = r.position ∧
      r'.pending = r.pending ∧
      (((atDesk p).bind k).run (fun q r => r.answer q) r = (none, r') ∨
        ∃ result, p.Reaches calls (.done result) ∧
          ((atDesk p).bind k).run (fun q r => r.answer q) r =
            (k result).run (fun q r => r.answer q) r') := by
  induction p generalizing r with
  | done result => exact ⟨[], r, by simp, rfl, rfl, .inr ⟨result, .here _, rfl⟩⟩
  | ask call next ih =>
    rcases r.answers (.desk call) with h | ⟨fate, r₁, h⟩
    · refine ⟨[], r, by simp, rfl, rfl, .inl ?_⟩
      simp only [atDesk, Program.bind_ask, Program.run, h]
    · obtain ⟨calls, r₂, hhist, hpos, hpend, hrest⟩ := ih (fate.desk call) r₁
      refine ⟨⟨call, fate.desk call⟩ :: calls, r₂, ?_, hpos.trans h.position,
        hpend.trans h.pending, ?_⟩
      · rw [hhist, h.history, List.append_assoc]
        rfl
      · simp only [atDesk, Program.bind_ask, Program.run, h.answer]
        rcases hrest with hrun | ⟨result, hreaches, hrun⟩
        · exact .inl hrun
        · exact .inr ⟨result, .on hreaches, hrun⟩

/-! ## Turns, readers and attempts -/

/-- **What a turn leaves behind**: a source with the messages from the position on if the turn
commits, and none of them if the feed is closed. -/
def Leaves (log : Partition) (turn : Option Consumer.Turn) (r : Replay) : Prop :=
  ∃ done todo, r.At log done todo ∧ (turn = some .committed → r.pending = todo) ∧
    (turn = some .closed → todo = [])

theorem At.leaves_failed (h : r.At log done todo) {e : FeedError} :
    Leaves log (some (.failed e)) r :=
  ⟨done, todo, h, by simp, by simp⟩

theorem At.leaves_none (h : r.At log done todo) : Leaves log none r :=
  ⟨done, todo, h, by simp, by simp⟩

/-- A message that was handled is committed. -/
theorem commit_at (h : r.At log done (m :: todo)) (hm : HandledIn m r.history)
    (pending : r.pending = todo) {turn : Option Consumer.Turn}
    (run : (Consumer.commit m).run (fun q r => r.answer q) r = (turn, r')) :
    Leaves log turn r' := by
  rcases r.answers (.commit m) with ha | ⟨fate, r₁, ha⟩
  · simp only [Consumer.commit, Program.run, ha] at run
    obtain ⟨rfl, rfl⟩ := Prod.mk.inj run
    exact h.leaves_none
  · obtain ⟨hpend, ⟨hpos, e, he⟩ | hpos⟩ := r.respond_commit fate m
    · simp only [Consumer.commit, Program.run, ha.answer, he] at run
      obtain ⟨rfl, rfl⟩ := Prod.mk.inj run
      exact (h.same ha.history (by simp [message?]) (ha.position.trans hpos)).leaves_failed
    · have hat : r₁.At log (done ++ [m]) todo := by
        have hmem : m ∈ log.messages := by simp [h.split]
        refine h.commit hm ha.history rfl ?_
        rw [ha.position]
        exact Partition.offset_of_positionAfter hmem hpos
      rcases he : ((r.respond fate (.commit m)).1 : Except SourceError Unit) with e | u
      · simp only [Consumer.commit, Program.run, ha.answer, he] at run
        obtain ⟨rfl, rfl⟩ := Prod.mk.inj run
        exact hat.leaves_failed
      · simp only [Consumer.commit, Program.run, ha.answer, he] at run
        obtain ⟨rfl, rfl⟩ := Prod.mk.inj run
        exact ⟨_, _, hat, fun _ => ha.pending.trans (hpend.trans pending), by simp⟩

/-- A message that was received is handled. -/
theorem handle_at (h : r.At log done (m :: todo))
    {earlier : List (Exchange Question Question.Answer)}
    (hist : r.history = earlier ++ [received m]) (pending : r.pending = todo)
    {turn : Option Consumer.Turn}
    (run : (Consumer.handle m now).run (fun q r => r.answer q) r = (turn, r')) :
    Leaves log turn r' := by
  simp only [Consumer.handle] at run
  cases hm : m.decodeAssembled with
  | error e =>
    simp only [hm, Program.run] at run
    obtain ⟨rfl, rfl⟩ := Prod.mk.inj run
    exact h.leaves_failed
  | ok event =>
    simp only [hm] at run
    obtain ⟨calls, r₁, hhist, hpos, hpend, hrun⟩ := run_atDesk (Desk.assemble event.orderId now) _ r
    have hat : r₁.At log done (m :: todo) := by
      exact h.same hhist (by simp) hpos
    rcases hrun with hrun | ⟨result, hreaches, hrun⟩
    · rw [hrun] at run
      obtain ⟨rfl, rfl⟩ := Prod.mk.inj run
      exact hat.leaves_none
    · rw [hrun] at run
      cases hr : handled event result with
      | error e =>
        simp only [hr, Program.run] at run
        obtain ⟨rfl, rfl⟩ := Prod.mk.inj run
        exact hat.leaves_failed
      | ok _ =>
        simp only [hr] at run
        refine commit_at hat ?_ (hpend.trans pending) run
        refine ⟨event, earlier, result, r₁.history, List.prefix_refl _,
          ⟨hm, now, calls, hreaches, ?_⟩, Consumer.handled_eq_ok_iff.mp hr⟩
        rw [hhist, hist, List.append_assoc]
        rfl

/-- **A turn** keeps to the partition. -/
theorem turn_at (h : r.At log done todo) (pending : r.pending = todo)
    {turn : Option Consumer.Turn}
    (run : (Consumer.turn now).run (fun q r => r.answer q) r = (turn, r')) :
    Leaves log turn r' := by
  rcases r.answers .receive with ha | ⟨fate, r₁, ha⟩
  · simp only [Consumer.turn, Program.run, ha] at run
    obtain ⟨rfl, rfl⟩ := Prod.mk.inj run
    exact h.leaves_none
  · obtain ⟨hpos, ⟨e, he⟩ | ⟨he, hp⟩ | ⟨m, he, hp⟩⟩ := r.respond_receive fate
    · simp only [Consumer.turn, Program.run, ha.answer, he] at run
      obtain ⟨rfl, rfl⟩ := Prod.mk.inj run
      exact (h.same ha.history (by simp [he, message?]) (ha.position.trans hpos)).leaves_failed
    · simp only [Consumer.turn, Program.run, ha.answer, he] at run
      obtain ⟨rfl, rfl⟩ := Prod.mk.inj run
      refine ⟨done, todo, ?_, by simp, fun _ => pending.symm.trans hp⟩
      exact h.same ha.history (by simp [he, message?]) (ha.position.trans hpos)
    · simp only [Consumer.turn, Program.run, ha.answer, he] at run
      obtain rfl : todo = m :: r₁.pending := by
        rw [ha.pending, ← hp, pending]
      have hhist : r₁.history = r.history ++ [received m] := by
        rw [ha.history, he]
        rfl
      exact handle_at now (h.receive hhist (ha.position.trans hpos)) hhist rfl run

/-- **A reader** keeps to the partition, and ends well only behind the last message. -/
theorem run_at (clock : List Instant) (h : r.At log done todo) (pending : r.pending = todo)
    {outcome : Option Consumer.Outcome}
    (run : Consumer.run (fun _ q r => r.answer q) clock r = (outcome, r')) :
    ∃ done todo, r'.At log done todo ∧ (outcome = some (.ok ()) → todo = []) := by
  induction clock generalizing r done todo with
  | nil =>
    obtain ⟨rfl, rfl⟩ := Prod.mk.inj run
    exact ⟨done, todo, h, by simp⟩
  | cons now clock ih =>
    rw [Consumer.run] at run
    cases hturn : (Consumer.turn now).run (fun q r => r.answer q) r with
    | mk turn r₁ =>
      obtain ⟨done, todo, hat, hcommitted, hclosed⟩ := turn_at now h pending hturn
      rw [hturn] at run
      cases turn with
      | none =>
        obtain ⟨rfl, rfl⟩ := Prod.mk.inj run
        exact ⟨done, todo, hat, by simp⟩
      | some turn =>
        cases turn with
        | committed => exact ih hat (hcommitted rfl) run
        | closed =>
          obtain ⟨rfl, rfl⟩ := Prod.mk.inj run
          exact ⟨done, todo, hat, fun _ => hclosed rfl⟩
        | failed e =>
          obtain ⟨rfl, rfl⟩ := Prod.mk.inj run
          exact ⟨done, todo, hat, by simp⟩

/-- **An attempt** reads from the committed position on. -/
theorem attempt_at {clock : Nat → List Instant} {number : Nat} (h : r.At log done todo)
    {ended : Option Attempt} (run : attempt log clock number r = (ended, r')) :
    ∃ done todo, r'.At log done todo ∧
      ∀ a, ended = some a → Supervisor.isLast a = true → todo = [] := by
  have hscript {script : List Fate} {pending : List Message} :
      ({ r with pending, script } : Replay).At log done todo :=
    ⟨h.split, h.position, h.handled, h.ordered⟩
  unfold attempt at run
  split at run
  · obtain ⟨rfl, rfl⟩ := Prod.mk.inj run
    exact ⟨done, todo, h, by simp⟩
  · rename_i fate script _
    split at run
    · obtain ⟨rfl, rfl⟩ := Prod.mk.inj run
      exact ⟨done, todo, hscript, by simp [Supervisor.isLast]⟩
    · cases hrun : Consumer.run (fun _ q r => r.answer q) (clock number)
          { r with pending := r.remaining log, script } with
      | mk outcome r₁ =>
        obtain ⟨done', todo', hat, hok⟩ :=
          run_at (clock number) hscript (Partition.remaining_eq h.split h.position) hrun
        rw [hrun] at run
        obtain ⟨rfl, rfl⟩ := Prod.mk.inj run
        refine ⟨done', todo', hat, fun a ha hlast => hok ?_⟩
        obtain ⟨outcome, rfl, rfl⟩ := Option.map_eq_some_iff.mp ha
        cases outcome with
        | ok _ => rfl
        | error e => cases hlast

/-- **The supervisor** keeps to the partition, and is done only behind the last message. -/
theorem supervise_at {clock : Nat → List Instant} (attempts number : Nat)
    (h : r.At log done todo) {outcome : Option Unit}
    (run : Supervisor.run (attempt log clock) number attempts r = (outcome, r')) :
    ∃ done todo, r'.At log done todo ∧ (outcome = some () → todo = []) := by
  induction attempts generalizing number r done todo with
  | zero =>
    obtain ⟨rfl, rfl⟩ := Prod.mk.inj run
    exact ⟨done, todo, h, by simp⟩
  | succ attempts ih =>
    rw [Supervisor.run] at run
    cases hattempt : attempt log clock number r with
    | mk ended r₁ =>
      obtain ⟨done, todo, hat, hlast⟩ := attempt_at h hattempt
      rw [hattempt] at run
      cases ended with
      | none =>
        obtain ⟨rfl, rfl⟩ := Prod.mk.inj run
        exact ⟨done, todo, hat, by simp⟩
      | some a =>
        simp only at run
        split at run
        · rename_i ha
          obtain ⟨rfl, rfl⟩ := Prod.mk.inj run
          exact ⟨done, todo, hat, fun _ => hlast a rfl ha⟩
        · exact ih (number + 1) hat run

end Replay

section Supervised

variable (log : Partition) (clock : Nat → List Instant) (attempts : Nat) (script : List Fate)

/-- **Wherever the reading of a partition has come**, it keeps to the partition. -/
theorem replay_at : ∃ done todo, (replay log clock attempts script).2.At log done todo ∧
    ((replay log clock attempts script).1 = some () → todo = []) := by
  have hstart : Replay.At log ⟨0, [], [], script⟩ [] log.messages :=
    ⟨rfl, rfl, by simp, by simp⟩
  exact Replay.supervise_at attempts 1 hstart rfl

/-- **Every partition is read at least once, in order, and to its end**, whatever befalls the
questions on the way. Every message below the committed position has been handled; before a message
is received, all those before it have been handled, and so messages are handled for the first time
in their order; the position never passes a message that is stuck, and no message behind such a one
is even received; and once the supervisor is done the position is behind the last message. -/
theorem replayed_in_order :
    (∀ m ∈ log.messages, m.offset < (replay log clock attempts script).2.position →
      HandledIn m (replay log clock attempts script).2.history) ∧
      (∀ early, early <+: (replay log clock attempts script).2.history →
        ∀ m ∈ log.messages, ∀ m' ∈ log.messages, m.offset < m'.offset → HandledIn m' early →
          ∃ earlier, earlier <+: early ∧ earlier.length < early.length ∧ HandledIn m earlier) ∧
      (∀ m ∈ log.messages, Stuck m (replay log clock attempts script).2.history →
        (replay log clock attempts script).2.position ≤ m.offset ∧
          ∀ m' ∈ log.messages, m.offset < m'.offset →
            received m' ∉ (replay log clock attempts script).2.history ∧
              ¬ HandledIn m' (replay log clock attempts script).2.history) ∧
      ((replay log clock attempts script).1 = some () →
        (replay log clock attempts script).2.position = Partition.behind log.messages) := by
  obtain ⟨done, todo, hat, hdone⟩ := replay_at log clock attempts script
  generalize replay log clock attempts script = result at hat hdone ⊢
  obtain ⟨outcome, r⟩ := result
  simp only at hat hdone ⊢
  have hbelow : ∀ m ∈ log.messages, m.offset < r.position → HandledIn m r.history := by
    intro m hm hlt
    rw [hat.split] at hm
    rcases List.mem_append.mp hm with hm | hm
    · exact hat.handled m hm
    · have := Partition.behind_le hat.split hm
      rw [hat.position] at hlt
      omega
  have hbefore {m m' : Message} (hm : m ∈ log.messages) (hlt : m.offset < m'.offset)
      {before after : List (Exchange Question Question.Answer)}
      (hist : r.history = before ++ received m' :: after) : HandledIn m before :=
    (hat.ordered hist).2 m hm hlt
  refine ⟨hbelow, ?_, ?_, ?_⟩
  · rintro early ⟨rest, hrest⟩ m hm m' hm' hlt hhandled
    obtain ⟨before, after, rfl⟩ := hhandled.received
    have hist : r.history = before ++ received m' :: (after ++ rest) := by simp [← hrest]
    exact ⟨before, List.prefix_append _ _, by simp, hbefore hm hlt hist⟩
  · intro m hm hstuck
    have hnot := hstuck.not_handledIn
    refine ⟨Int.not_lt.mp fun hlt => hnot (hbelow m hm hlt), fun m' hm' hlt => ?_⟩
    -- before it was received the message that is stuck would have been handled
    have hnever : received m' ∉ r.history := by
      intro hmem
      obtain ⟨before, after, hist⟩ := List.append_of_mem hmem
      exact hnot ((hbefore hm hlt hist).mono ⟨_, hist.symm⟩)
    refine ⟨hnever, fun hhandled => hnever ?_⟩
    obtain ⟨before, after, hist⟩ := hhandled.received
    rw [hist]
    simp
  · intro houtcome
    rw [hat.position, hat.split, hdone houtcome, List.append_nil]

end Supervised

/-- Two pieces of news, and something unreadable between them. -/
def garbled : Partition where
  messages := [Consumer.news 0, { Consumer.news 1 with payload := [] }, Consumer.news 2]
  ascending := by simp [Consumer.news]
  offsets := by
    simp only [Consumer.news, List.forall_mem_cons]
    decide

/-- A fate in which the desk always has the same order, paid for. -/
def Fate.fair : Fate where
  source := none
  receive := none
  commit := .lands
  desk
    | .listParts _ => .ok []
    | .charge _ _ _ => .ok "t-1"
    | .publish _ => .ok ()
    | .create order => .ok order
    | .load id => .ok ⟨id, "u-1", ["p-1"], 1, .paid, some "t-1", some .card, .epoch, .epoch⟩
    | .update _ _ => .ok ()
    | .count _ => ()

/-- No source is made at first, and then nothing is received from it. The commit of the first news
takes effect, but the reader is told that it failed. -/
def troubled : List Fate :=
  [{ Fate.fair with source := some "broker unreachable" },
    .fair, { Fate.fair with receive := some (.receive "connection reset") },
    .fair, .fair, .fair, .fair, .fair, { Fate.fair with commit := .unheard (.receive "timed out") },
    .fair, .fair, .fair, .fair]

/-- Ten turns on the day of the attempt. -/
def daily (number : Nat) : List Instant :=
  (List.range 10).map fun turn => { Instant.epoch with seconds := 86400 * number + turn }

theorem replayed_in_order_garbled :
    (replay garbled daily 10 troubled).2.position = 1 ∧
      HandledIn (Consumer.news 0) (replay garbled daily 10 troubled).2.history ∧
      received (Consumer.news 2) ∉ (replay garbled daily 10 troubled).2.history := by
  have hposition : (replay garbled daily 10 troubled).2.position = 1 := by
    decide +kernel
  have hstuck : Stuck { Consumer.news 1 with payload := [] }
      (replay garbled daily 10 troubled).2.history :=
    .inl ⟨_, rfl⟩
  obtain ⟨below, -, behind, -⟩ := replayed_in_order garbled daily 10 troubled
  refine ⟨hposition, below _ (by simp [garbled]) ?_, ?_⟩
  · rw [hposition]
    decide
  · exact ((behind _ (by simp [garbled]) hstuck).2 _ (by simp [garbled]) (by decide)).1

end OrderDesk
