import OrderDesk.Proofs.Shop.Basic

/-!
# Assemblies heard by readers

What the desk answers to the event of a message tells what was stored while it was handled. An
order whose payment was announced is paid by then, so its assembly always succeeds; and whatever a
reader commits either is assembled, or could not be.

## Main definitions

* `Meanwhile`: something was stored at a moment while a message was handled
* `Tells`: what the answer of the desk tells
* `Causal`: messages come after the announcements that they answer

## Main results

* `tells_of_handled`: what the desk answers to the event of a message is true
* `assembled_if_causal`: no assembly is lost if messages come after the announcements
* `committed_if_applied`: whatever is committed is assembled, or could not be
-/

namespace OrderDesk.Shop

open Consumer (Question received message? atReader Handled)
open Desk (Outcomes loaded)

variable {s : Store} {moves : List (Move Guest (Occasion Instant))} {who : Nat} {m : Message}
  {event : AssembledEvent} {earlier past rest : List (Exchange Question Question.Answer)}
  {result : Except DeskError Unit} {id : Uuid}

/-- **An order is assembled**, as stored. -/
def AssembledIn (s : Store) (id : Uuid) : Prop :=
  ∃ o, s.find? id = some o ∧ o.status = .assembled

/-- **An assembled order stays so.** -/
theorem AssembledIn.later (h : AssembledIn (shopAt s moves).state id)
    (more : List (Move Guest (Occasion Instant))) :
    AssembledIn (shopAt s (moves ++ more)).state id := by
  obtain ⟨o, hfind, hs⟩ := h
  obtain ⟨o', hfind', hev⟩ := stored_later hfind more
  exact ⟨o', hfind', Status.leadsTo_assembled (hs ▸ hev.status)⟩

/-- **Something was stored meanwhile**: at a moment while somebody handled a message, after its
receipt and before the exchanges of the desk about it were over. -/
def Meanwhile (s : Store) (moves : List (Move Guest (Occasion Instant))) (who : Nat) (m : Message)
    (earlier past : List (Exchange Question Question.Answer)) (stored : Store → Prop) : Prop :=
  ∃ before after, moves = before ++ after ∧
    earlier ++ [received m] <+: own who (shopAt s before).exchanges ∧
    own who (shopAt s before).exchanges <+: past ∧ stored (shopAt s before).state

/-- **What the answer of the desk tells** about the order of an event. -/
inductive Tells (s : Store) (moves : List (Move Guest (Occasion Instant))) (who : Nat) (m : Message)
    (id : Uuid) (earlier past : List (Exchange Question Question.Answer)) :
    Except DeskError Unit → Prop
  | assembled (assembled : AssembledIn (shopAt s moves).state id) :
    Tells s moves who m id earlier past (.ok ())
  | missed (meanwhile : Meanwhile s moves who m earlier past fun s => s.find? id = none) :
    Tells s moves who m id earlier past (.error (.orderNotFound id))
  | unpaid {status : Status} (unpaid : status = .pendingPayment ∨ status = .cancelled)
    (meanwhile : Meanwhile s moves who m earlier past fun s =>
      ∃ o, s.find? id = some o ∧ o.status = status) :
    Tells s moves who m id earlier past (.error (.invalidStatus id status))

/-- What a guest asks at the desk is answered by the store. -/
theorem answers_of_asked {t t' : Traffic Guest Question Question.Answer Farewell Store} {g : Guest}
    {x : Exchange Call Call.Answer}
    (h : Traffic.Asked (rules Outcomes.answer) t t' who g (atReader x)) :
    t.state.Answers x t'.state := by
  obtain ⟨c, answered⟩ := h.answered
  exact ⟨g.outcomes, c.desk, answered⟩

/-- **The moment of an exchange of the desk** about a message. -/
theorem call_moment (calls : Desk.Past) {more : Desk.Past} {x : Exchange Call Call.Answer}
    (h : own who (shopAt s moves).exchanges =
      earlier ++ received m :: (calls ++ x :: more).map atReader ++ rest) :
    ∃ before c after, moves = before ++ c :: after ∧
      own who (shopAt s before).exchanges = earlier ++ received m :: calls.map atReader ∧
      (shopAt s before).state.Answers x (shopAt s (before ++ [c])).state := by
  have hsplit : own who (shopAt s moves).exchanges =
      (earlier ++ received m :: calls.map atReader) ++
        atReader x :: (more.map atReader ++ rest) := by
    simp [h]
  obtain ⟨before, c, after, g, hmoves, hown, hasked⟩ := Traffic.moment hsplit
  exact ⟨before, c, after, hmoves, hown, answers_of_asked hasked⟩

/-- **The moment of the look** at the order. -/
theorem look_moment {o : Order} {more : Desk.Past}
    (h : own who (shopAt s moves).exchanges =
      earlier ++ received m :: (loaded id o :: more).map atReader ++ rest) :
    ∃ before after, moves = before ++ after ∧
      own who (shopAt s before).exchanges = earlier ++ [received m] ∧
      (shopAt s before).state.find? id = some o := by
  obtain ⟨before, c, after, hmoves, hown, hanswers⟩ := call_moment [] h
  exact ⟨before, c :: after, hmoves, hown, hanswers.find?⟩

/-- **The moment of the write**: the order is still there, in a later version than the copy. -/
theorem write_moment {o : Order} {x : Exchange Call Call.Answer} {more : Desk.Past}
    (h : own who (shopAt s moves).exchanges =
      earlier ++ received m :: (loaded id o :: x :: more).map atReader ++ rest) :
    ∃ before c after cur, moves = before ++ c :: after ∧ o.id = id ∧
      (shopAt s before).state.find? o.id = some cur ∧ o.Evolves cur ∧
      (shopAt s before).state.Answers x (shopAt s (before ++ [c])).state := by
  obtain ⟨before, c, after, hmoves, hown, hanswers⟩ := call_moment [loaded id o] h
  have hlook : own who (shopAt s before).exchanges =
      earlier ++ received m :: (loaded id o :: []).map atReader ++ [] := by
    simp [hown]
  obtain ⟨look, later, rfl, -, hfind⟩ := look_moment hlook
  obtain rfl : o.id = id := Store.id_of_find? hfind
  obtain ⟨cur, hcur, hev⟩ := stored_later hfind later
  exact ⟨look ++ later, c, after, cur, hmoves, rfl, hcur, hev, hanswers⟩

/-- What is assembled after a move is assembled after all of them. -/
theorem AssembledIn.of_moment {before after : List (Move Guest (Occasion Instant))}
    {c : Move Guest (Occasion Instant)} (h : AssembledIn (shopAt s (before ++ [c])).state id)
    (hmoves : moves = before ++ c :: after) : AssembledIn (shopAt s moves).state id := by
  rw [hmoves, List.append_cons]
  exact h.later after

/-- **What the desk answers** to the event of a message is true. -/
theorem tells_of_handled (hpast : past <+: own who (shopAt s moves).exchanges)
    (h : Handled m event earlier result past) :
    Tells s moves who m event.orderId earlier past result := by
  obtain ⟨rest, hown⟩ := hpast
  obtain ⟨-, now, calls, hreaches, rfl⟩ := h
  have hmeanwhile {before after : List (Move Guest (Occasion Instant))} {stored : Store → Prop}
      (hmoves : moves = before ++ after)
      (hbefore : own who (shopAt s before).exchanges = earlier ++ [received m])
      (hstored : stored (shopAt s before).state) :
      Meanwhile s moves who m earlier (earlier ++ received m :: calls.map atReader) stored := by
    refine ⟨before, after, hmoves, ?_, ?_, hstored⟩
    · simp [hbefore]
    · rw [hbefore]
      exact ⟨calls.map atReader, by simp⟩
  have hending := Desk.assembling_of_reaches hreaches
  cases hending with
  | missed =>
    obtain ⟨before, c, after, hmoves, hbefore, hanswers⟩ := call_moment [] hown.symm
    obtain ⟨hnone, rfl⟩ := hanswers.missing
    exact .missed (hmeanwhile hmoves hbefore hnone)
  | @unpaid o status =>
    obtain ⟨before, after, hmoves, hbefore, hfind⟩ := look_moment hown.symm
    rw [DeskError.ofOrder, Store.id_of_find? hfind]
    exact .unpaid status (hmeanwhile hmoves hbefore ⟨o, hfind, rfl⟩)
  | @again o assembled =>
    obtain ⟨before, after, rfl, -, hfind⟩ := look_moment hown.symm
    exact .assembled (AssembledIn.later ⟨o, hfind, assembled⟩ after)
  | @notAgain o e assembled =>
    obtain ⟨before, c, after, cur, -, -, hcur, hev, hanswers⟩ := write_moment hown.symm
    exact absurd (Status.leadsTo_assembled (assembled ▸ hev.status))
      (hanswers.conflict hcur).1
  | @applied o w assembled =>
    obtain ⟨before, c, after, cur, hmoves, hid, hcur, hev, hanswers⟩ := write_moment hown.symm
    obtain ⟨-, rfl⟩ := Order.markAssembled_eq_ok_iff.mp assembled
    exact .assembled (AssembledIn.of_moment (hid ▸ hanswers.find?_of_written) hmoves)
  | @beaten o w id' expected assembled =>
    obtain ⟨before, c, after, cur, hmoves, hid, hcur, hev, hanswers⟩ := write_moment hown.symm
    obtain ⟨-, rfl⟩ := Order.markAssembled_eq_ok_iff.mp assembled
    obtain ⟨-, he⟩ := hanswers.conflict hcur
    have hcs : cur.status = .assembled := (StoreError.conflict.inj he).2.2.symm
    exact .assembled (hmoves ▸ AssembledIn.later ⟨cur, hid ▸ hcur, hcs⟩ (c :: after))
  | @overtaken o w e assembled other =>
    obtain ⟨before, c, after, cur, -, -, hcur, hev, hanswers⟩ := write_moment hown.symm
    obtain ⟨hs, rfl⟩ := Order.markAssembled_eq_ok_iff.mp assembled
    obtain ⟨hne, rfl⟩ := hanswers.conflict hcur
    -- the copy was paid, so only another assembly can have been faster
    rcases Status.leadsTo_of_paid (hs ▸ hev.status) with hcs | hcs
    · exact absurd (hcs.trans hs.symm) hne
    · exact absurd (by rw [hcs]) (other _ _)

/-! ## Messages after announcements -/

/-- **Messages come after the announcements** that they answer: whenever a message is received
whose event can be read, the announcement of the payment of its order has been tried before, with
whatever success. -/
def Causal (xs : List (Nat × Exchange Question Question.Answer)) : Prop :=
  ∀ k, ∀ h : k < xs.length, ∀ m ∈ message? xs[k].2, ∀ event ∈ m.decodeAssembled.toOption,
    ∃ x ∈ xs.take k, ∃ call ∈ desk? x.2, Desk.announces event.orderId call = true

instance (xs : List (Nat × Exchange Question Question.Answer)) : Decidable (Causal xs) :=
  inferInstanceAs (Decidable (∀ k, ∀ h : k < xs.length, ∀ m ∈ message? xs[k].2,
    ∀ event ∈ m.decodeAssembled.toOption,
    ∃ x ∈ xs.take k, ∃ call ∈ desk? x.2, Desk.announces event.orderId call = true))

/-- What was announced before a message was received. -/
theorem Causal.announced {xs ys : List (Nat × Exchange Question Question.Answer)}
    (causal : Causal (xs ++ (who, received m) :: ys)) (decoded : m.decodeAssembled = .ok event) :
    ∃ other paid answer, (other, atReader ⟨.publish paid, answer⟩) ∈ xs ∧
      paid.orderId = event.orderId := by
  have hcausal := causal xs.length (by simp) m (by simp) event (by simp [decoded, Except.toOption])
  rw [List.take_left] at hcausal
  obtain ⟨⟨other, x⟩, hx, ⟨q, a⟩, hcall, hannounces⟩ := hcausal
  obtain rfl := desk?_eq_some_iff.mp hcall
  cases q with
  | publish paid => exact ⟨other, paid, a, hx, by simpa [Desk.announces] using hannounces⟩
  | _ => cases hannounces

/-- When a message is received, its order is paid. -/
theorem paid_of_causal (causal : Causal (shopAt s moves).exchanges)
    (decoded : m.decodeAssembled = .ok event)
    (hown : own who (shopAt s moves).exchanges = earlier ++ received m :: rest) :
    ∃ before after o paid, moves = before ++ after ∧
      own who (shopAt s before).exchanges = earlier ∧
      (shopAt s before).state.find? event.orderId = some o ∧ o.PaidAs paid := by
  obtain ⟨before, c, after, g, rfl, hbefore, hasked⟩ := Traffic.moment hown
  obtain ⟨later, hlater⟩ := Traffic.exchanges_prefix_append (rules Outcomes.answer)
    (Traffic.opened s) (before ++ [c]) after
  rw [hasked.exchanges, List.append_assoc, List.append_assoc] at hlater
  obtain ⟨other, paid, answer, hpaid, horder⟩ := (hlater ▸ causal).announced decoded
  obtain ⟨o, hfind, has⟩ := paid_of_published hpaid
  exact ⟨before, c :: after, o, paid, rfl, hbefore, horder ▸ hfind, has⟩

/-- **What was paid when a message was received** is still there, and paid, meanwhile. -/
theorem Meanwhile.paid {before after : List (Move Guest (Occasion Instant))} {o : Order}
    {event : PaidEvent} {stored : Store → Prop}
    (h : Meanwhile s moves who m earlier past stored) (hmoves : moves = before ++ after)
    (hbefore : own who (shopAt s before).exchanges = earlier)
    (hfind : (shopAt s before).state.find? id = some o) (has : o.PaidAs event) :
    ∃ t, stored t ∧ ∃ o', t.find? id = some o' ∧ o'.PaidAs event := by
  obtain ⟨middle, later, hmiddle, hstart, -, hstored⟩ := h
  have hsplit := hmoves.symm.trans hmiddle
  rcases List.append_eq_append_iff.mp hsplit with ⟨more, rfl, -⟩ | ⟨more, rfl, -⟩
  · obtain ⟨o', hfind', hev⟩ := stored_later hfind more
    exact ⟨_, hstored, o', hfind', has.of_evolves hev⟩
  · -- the message was received only afterwards
    have hle : (own who (shopAt s middle).exchanges).length ≤ earlier.length := by
      rw [← hbefore]
      exact (own_mono (Traffic.exchanges_prefix_append ..)).length_le
    have hlt := hstart.length_le
    rw [List.length_append, List.length_singleton] at hlt
    omega

/-- **Whatever is committed** was handled, and the desk has answered so that it may be. -/
theorem handled_of_commit {answer : (Question.commit m).Answer}
    (h : own who (shopAt s moves).exchanges = past ++ ⟨.commit m, answer⟩ :: rest) :
    ∃ event earlier result, Handled m event earlier result past ∧
      past <+: own who (shopAt s moves).exchanges ∧
      (result = .ok () ∨ ∃ id status, result = .error (.invalidStatus id status)) := by
  obtain ⟨g, stage, -, hasks⟩ := Traffic.lawful_of_own keeps_guest h
  cases g with
  | customer v =>
    obtain ⟨call, hcall, -⟩ := hasks
    cases hcall
  | reader clock =>
    cases hasks with
    | commit answered settled =>
      exact ⟨_, _, _, answered, h ▸ List.prefix_append _ _, Consumer.handled_eq_ok_iff.mp settled⟩

/-- **No assembly is lost if messages come after the announcements**, in every shop. Whatever the
desk answers to the event of a message is that its order is assembled, and it is, then and forever;
no reader ends because of the desk; and whatever is committed is assembled. -/
theorem assembled_if_causal (s : Store) (moves : List (Move Guest (Occasion Instant)))
    (causal : Causal (shopAt s moves).exchanges) :
    (∀ who m event earlier result past, past <+: own who (shopAt s moves).exchanges →
      Handled m event earlier result past →
      result = .ok () ∧ ∀ more, AssembledIn (shopAt s (moves ++ more)).state event.orderId) ∧
      (∀ (who : Nat) clock id e, (shopAt s moves).visits[who]? ≠
        some (.reader clock, .returned (.read (some (.error (.handler id e)))))) ∧
      ∀ who m answer, (who, ⟨.commit m, answer⟩) ∈ (shopAt s moves).exchanges →
        ∃ event, m.decodeAssembled = .ok event ∧
          ∀ more, AssembledIn (shopAt s (moves ++ more)).state event.orderId := by
  have hhandled : ∀ who m event earlier result past, past <+: own who (shopAt s moves).exchanges →
      Handled m event earlier result past →
      result = .ok () ∧ ∀ more, AssembledIn (shopAt s (moves ++ more)).state event.orderId := by
    intro who m event earlier result past hpast h
    obtain ⟨rest, hown⟩ : ∃ rest, own who (shopAt s moves).exchanges =
        earlier ++ received m :: rest := by
      obtain ⟨rest, hrest⟩ := hpast
      obtain ⟨-, now, calls, -, rfl⟩ := h
      exact ⟨calls.map atReader ++ rest, by simp [← hrest]⟩
    obtain ⟨before, after, o, paid, hmoves, hbefore, hfind, has⟩ :=
      paid_of_causal causal h.decoded hown
    cases tells_of_handled hpast h with
    | assembled hassembled => exact ⟨rfl, hassembled.later⟩
    | missed hmeanwhile =>
      obtain ⟨t, hnone, o', hfind', -⟩ := hmeanwhile.paid hmoves hbefore hfind has
      rw [hnone] at hfind'
      cases hfind'
    | unpaid unpaid hmeanwhile =>
      obtain ⟨t, ⟨o₁, hfind₁, hs⟩, o₂, hfind₂, has₂⟩ := hmeanwhile.paid hmoves hbefore hfind has
      obtain rfl := Option.some.inj (hfind₁.symm.trans hfind₂)
      rw [← hs] at unpaid
      rcases has₂.status with hpaid | hpaid <;> simp [hpaid] at unpaid
  refine ⟨hhandled, ?_, ?_⟩
  · intro who clock id e h
    have hends := (Traffic.lawful_run keeps_guest s moves).within h
    obtain ⟨m, event, earlier, answered, -⟩ := hends _ rfl id e rfl
    cases (hhandled who m event earlier _ _ (List.prefix_refl _) answered).1
  · intro who m answer h
    obtain ⟨past, rest, hown⟩ := List.append_of_mem (mem_own.mpr h)
    obtain ⟨event, earlier, result, answered, hpast, -⟩ := handled_of_commit hown
    exact ⟨event, answered.decoded, (hhandled who m event earlier result past hpast answered).2⟩

/-- Nothing is delivered, and commits take effect. -/
def calm : Occasion Instant := ⟨.epoch, .ok none, .ok ()⟩

/-- A guest arrives and makes some moves before anybody else does. -/
def welcome (who : Nat) (g : Guest) (moves : Nat) : List (Move Guest (Occasion Instant)) :=
  .arrive g :: List.replicate moves (.proceed who calm)

/-- A reader arrives, receives the news, and has them handled. -/
def hear (who : Nat) (moves : Nat) : List (Move Guest (Occasion Instant)) :=
  .arrive (.reader [.epoch]) ::
    .proceed who { calm with delivery := .ok (some (Consumer.news 0)) } ::
    List.replicate moves (.proceed who calm)

/-- An order is placed and paid for before the news come. -/
def timely : List (Move Guest (Occasion Instant)) :=
  welcome 0 (.customer Desk.placer) 4 ++ welcome 1 (.customer Desk.payer) 6 ++ hear 2 5

theorem assembled_if_causal_timely :
    Causal (shopAt .empty timely).exchanges ∧ AssembledIn (shopAt .empty timely).state .nil := by
  have hcausal : Causal (shopAt .empty timely).exchanges := by decide +kernel
  have hcommit : ∃ x ∈ (shopAt .empty timely).exchanges,
      Consumer.committed? x.2 = some (Consumer.news 0) := by decide +kernel
  obtain ⟨⟨who, x⟩, hx, hnews⟩ := hcommit
  obtain ⟨answer, rfl⟩ := Consumer.eq_of_committed? hnews
  obtain ⟨-, -, committed⟩ := assembled_if_causal .empty timely hcausal
  obtain ⟨event, decoded, hassembled⟩ := committed who _ answer hx
  obtain rfl := Except.ok.inj ((Consumer.decode_news 0).symm.trans decoded)
  have hnow := hassembled []
  rw [List.append_nil] at hnow
  exact ⟨hcausal, hnow⟩

/-! ## What is committed -/

/-- **Whatever a reader commits is assembled, or could not be**, in every shop. The message was
decoded and its order is stored; either the desk has answered that it is assembled, and it is, then
and forever; or it has answered with a status that the order had at a moment while the message was
handled, and that is one of an order that was not paid for. No message is ever dropped because its
order is paid or assembled. -/
theorem committed_if_applied (s : Store) (moves : List (Move Guest (Occasion Instant))) :
    (∀ who m answer past rest,
      own who (shopAt s moves).exchanges = past ++ ⟨.commit m, answer⟩ :: rest →
      ∃ event earlier result, Handled m event earlier result past ∧
        (∃ o, (shopAt s moves).state.find? event.orderId = some o) ∧
        ((result = .ok () ∧ ∀ more, AssembledIn (shopAt s (moves ++ more)).state event.orderId) ∨
          ∃ status, result = .error (.invalidStatus event.orderId status) ∧
            (status = .pendingPayment ∨ status = .cancelled) ∧
            Meanwhile s moves who m earlier past fun s =>
              ∃ o, s.find? event.orderId = some o ∧ o.status = status)) ∧
      ∀ who m event earlier past id status, past <+: own who (shopAt s moves).exchanges →
        Handled m event earlier (.error (.invalidStatus id status)) past →
        status ≠ .paid ∧ status ≠ .assembled := by
  refine ⟨?_, ?_⟩
  · intro who m answer past rest hown
    obtain ⟨event, earlier, result, answered, hpast, hsettled⟩ := handled_of_commit hown
    refine ⟨event, earlier, result, answered, ?_⟩
    cases tells_of_handled hpast answered with
    | assembled hassembled =>
      obtain ⟨o, hfind, hs⟩ := hassembled
      exact ⟨⟨o, hfind⟩, .inl ⟨rfl, AssembledIn.later ⟨o, hfind, hs⟩⟩⟩
    | missed _ => rcases hsettled with h | ⟨id, status, h⟩ <;> cases h
    | @unpaid status unpaid hmeanwhile =>
      obtain ⟨before, after, rfl, hstart, hend, o, hfind, hs⟩ := hmeanwhile
      obtain ⟨o', hfind', -⟩ := stored_later hfind after
      exact ⟨⟨o', hfind'⟩,
        .inr ⟨status, rfl, unpaid, before, after, rfl, hstart, hend, o, hfind, hs⟩⟩
  · intro who m event earlier past id status hpast answered
    cases tells_of_handled hpast answered with
    | unpaid unpaid _ => rcases unpaid with rfl | rfl <;> decide

/-- The news come before the order is paid for. -/
def premature : List (Move Guest (Occasion Instant)) :=
  welcome 0 (.customer Desk.placer) 4 ++ hear 1 2

theorem committed_if_applied_premature :
    ((shopAt .empty premature).state.find? .nil).map (·.status) = some .pendingPayment ∧
      ∃ earlier past status, (status = .pendingPayment ∨ status = .cancelled) ∧
        Meanwhile .empty premature 1 (Consumer.news 0) earlier past fun s =>
          ∃ o, s.find? .nil = some o ∧ o.status = status := by
  have hstored : ((shopAt .empty premature).state.find? .nil).map (·.status) =
      some .pendingPayment := by decide +kernel
  have hcommit : ∃ x ∈ (shopAt .empty premature).exchanges,
      x.1 = 1 ∧ Consumer.committed? x.2 = some (Consumer.news 0) := by decide +kernel
  refine ⟨hstored, ?_⟩
  obtain ⟨⟨who, x⟩, hx, rfl, hnews⟩ := hcommit
  obtain ⟨answer, rfl⟩ := Consumer.eq_of_committed? hnews
  obtain ⟨past, rest, hown⟩ := List.append_of_mem (mem_own.mpr hx)
  obtain ⟨event, earlier, result, answered, -, hresult⟩ :=
    (committed_if_applied .empty premature).1 _ _ answer past rest hown
  obtain rfl := Except.ok.inj ((Consumer.decode_news 0).symm.trans answered.decoded)
  rcases hresult with ⟨-, hassembled⟩ | ⟨status, -, hunpaid, hmeanwhile⟩
  · obtain ⟨o, hfind, hs⟩ := hassembled []
    rw [List.append_nil] at hfind
    have hfind' : (shopAt .empty premature).state.find? .nil = some o := hfind
    simp [hfind', hs] at hstored
  · exact ⟨earlier, past, status, hunpaid, hmeanwhile⟩

end OrderDesk.Shop
