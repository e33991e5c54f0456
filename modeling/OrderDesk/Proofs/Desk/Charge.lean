import OrderDesk.Proofs.Desk.Answered
import OrderDesk.Proofs.Desk.History
import OrderDesk.Proofs.Desk.Linearizable
import OrderDesk.Proofs.Traffic.Moment
import OrderDesk.Proofs.Traffic.View

/-!
# Charges fall within a window

Between the look at an order and the write that makes it paid, several visits may charge for it.
The window opens at a moment inside the visit at which the order waits for its payment, and it
closes for good with the first write. Whoever charged and then lost the race asks nothing more.

## Main definitions

* `deskAt`: the traffic at a store
* `charges`: the exchanges that charge for an order
* `loss`: the law of a payment that lost the race

## Main results

* `stored_later`: what was stored is stored later, in a later version
* `charge_moment`: the moment at which the window of a charge opened
* `lost_payment`: how a payment ends that lost the race
* `charged_in_window`: the charges for every order
-/

namespace OrderDesk

/-- The visit stands before its return with `r`, or has returned it, unless it was abandoned. -/
def Stage.EndsWith {Q : Type} {A : Q → Type} {R : Type} (r : R) : Stage Q A R → Prop
  | .underway p => p = .done r
  | .returned r' => r' = r
  | .abandoned => True

/-- There is at most one of a kind if none of it comes before another. -/
theorem countP_le_one {α : Type} {p : α → Bool} {l : List α}
    (h : ∀ ys x zs, l = ys ++ x :: zs → p x = true → ∀ y ∈ ys, ¬ p y = true) :
    l.countP p ≤ 1 := by
  induction l using List.reverseRecOn with
  | nil => simp
  | append_singleton l a ih =>
    rw [List.countP_append]
    by_cases ha : p a = true
    · have hzero : l.countP p = 0 := List.countP_eq_zero.mpr (h l a [] rfl ha)
      simp [hzero, ha]
    · have hle := ih fun ys x zs hl => h ys x (zs ++ [a]) (by simp [hl])
      simpa [ha] using hle

namespace Desk

/-! ## The desk at a store -/

/-- The traffic at a store, after some moves. -/
abbrev deskAt (s : Store) (moves : List (Move Visit Instant)) :
    Traffic Visit Call Call.Answer Reply Store :=
  (Traffic.opened s).run atStore moves

theorem atArchive_shows : atArchive.Shows atStore Archive.store Circumstance.fresh where
  program _ := rfl
  answer v now call a := by
    obtain ⟨hanswer, hstore⟩ := Archive.answer_fresh v.outcomes now call a
    exact Prod.ext hanswer.symm hstore.symm

/-- **A store is an archive** at which nobody looks back. -/
theorem deskAt_eq (s : Store) (moves : List (Move Visit Instant)) :
    deskAt s moves =
      (trafficAt s (moves.map (.withChance .fresh))).seen Archive.store :=
  Traffic.run_seen atArchive_shows (Traffic.opened (.opened s)) moves

/-- **What was stored is stored later**, in a later version. -/
theorem stored_later {s : Store} {moves : List (Move Visit Instant)} {id : Uuid} {o : Order}
    (h : (deskAt s moves).state.find? id = some o) (more : List (Move Visit Instant)) :
    ∃ o', (deskAt s (moves ++ more)).state.find? id = some o' ∧ o.Evolves o' := by
  rw [deskAt_eq] at h
  rw [deskAt_eq, List.map_append]
  exact evolves_later s _ _ ((remembered s _).sound.mem_of_find? h)

theorem keeps_atStore (v : Visit) : (atStore.program v).Keeps (law v) [] := keeps_law v

/-- What is asked at a store is answered by it. -/
theorem answers_of_asked {t t' : Traffic Visit Call Call.Answer Reply Store} {who : Nat} {v : Visit}
    {x : Exchange Call Call.Answer} (h : Traffic.Asked atStore t t' who v x) :
    t.state.Answers x t'.state :=
  ⟨v.outcomes, h.answered⟩

/-! ## The window -/

/-- Whether an exchange charges for an order, with whatever success. -/
def charges : Exchange Call Call.Answer → Bool
  | ⟨.charge _ _ _, _⟩ => true
  | _ => false

section Window

variable {s : Store} {moves : List (Move Visit Instant)} {who : Nat} {id : Uuid} {user : String}
  {method : Method}

/-- **An order is charged for** only right after a look at it that found it waiting for its
payment. -/
theorem Asks.charge_inv {draw : Draw} {request : Request} {past : Past}
    (h : Asks draw request past (.charge id user method)) :
    ∃ id' o, request = .pay id' method ∧ past = [loaded id' o] ∧ o.status = .pendingPayment ∧
      id = o.id ∧ user = o.user := by
  cases h with
  | charge pending => exact ⟨_, _, rfl, rfl, pending, rfl, rfl⟩

/-- **The moment at which the window of a charge opened**: the visit had arrived and not charged
yet, and its order was stored as waiting for its payment. -/
theorem charge_moment {answer : Except ClientError String}
    (h : (who, ⟨.charge id user method, answer⟩) ∈ (deskAt s moves).exchanges) :
    ∃ before after v p o, moves = before ++ after ∧ v.request = .pay id method ∧
      (deskAt s before).visits[who]? = some (v, .underway p) ∧
      own who (deskAt s before).exchanges = [] ∧
      (deskAt s before).state.find? id = some o ∧ o.status = .pendingPayment ∧ o.user = user := by
  obtain ⟨ys, zs, hown⟩ := List.append_of_mem (mem_own.mpr h)
  obtain ⟨middle, m, after, v, rfl, hys, hcharge⟩ := Traffic.moment hown
  obtain ⟨next, standing⟩ := hcharge.standing
  have hasks := ((Traffic.lawful_run keeps_atStore s middle).within standing).1
  rw [hys] at hasks
  obtain ⟨id', o, hrequest, rfl, hpending, rfl, rfl⟩ := Asks.charge_inv hasks
  obtain ⟨before, m', after', w, rfl, hnil, hload⟩ :=
    Traffic.moment (show _ = [] ++ loaded id' o :: [] from hys)
  obtain ⟨next', standing'⟩ := hload.standing
  obtain rfl : w = v := Traffic.same_visit standing' standing
  have hfind := (answers_of_asked hload).find?
  obtain rfl : o.id = id' := Store.id_of_find? hfind
  exact ⟨before, m' :: after' ++ m :: after, w, _, o, by simp, hrequest, standing', hnil, hfind,
    hpending, rfl⟩

/-- **Each visit charges at most once.** -/
theorem charge_once (s : Store) (moves : List (Move Visit Instant)) (who : Nat) :
    (own who (deskAt s moves).exchanges).countP charges ≤ 1 := by
  refine countP_le_one fun ys x zs hown hx => ?_
  obtain ⟨middle, m, after, v, rfl, hys, hcharge⟩ := Traffic.moment hown
  obtain ⟨next, standing⟩ := hcharge.standing
  have hasks := ((Traffic.lawful_run keeps_atStore s middle).within standing).1
  rw [hys] at hasks
  obtain ⟨call, a⟩ := x
  cases call with
  | charge id user method =>
    obtain ⟨id', o, -, rfl, -, -, -⟩ := Asks.charge_inv hasks
    simp [charges, loaded]
  | _ => simp [charges] at hx

/-- **Once an order no longer waits for its payment**, nobody who arrives later charges for it. -/
theorem not_charged_later {o : Order} (stored : (deskAt s moves).state.find? id = some o)
    (left : o.status ≠ .pendingPayment) (late : (deskAt s moves).visits.length ≤ who)
    (more : List (Move Visit Instant)) (answer : Except ClientError String) :
    (who, ⟨.charge id user method, answer⟩) ∉ (deskAt s (moves ++ more)).exchanges := by
  intro h
  obtain ⟨before, after, v, p, o', hmoves, -, standing, -, hfind, hpending, -⟩ := charge_moment h
  rcases List.append_eq_append_iff.mp hmoves with ⟨mid, rfl, -⟩ | ⟨mid, rfl, -⟩
  · -- the window opened later, but the order never waits for its payment again
    obtain ⟨o'', hfind', hev⟩ := stored_later stored mid
    obtain rfl := Option.some.inj (hfind'.symm.trans hfind)
    exact left (hpending ▸ hev.status).eq_pending
  · -- the window opened before, so the visit had arrived before
    obtain ⟨stage, hlater⟩ := Traffic.visit_later standing mid
    exact absurd (List.getElem?_eq_some_iff.mp hlater).1 (Nat.not_lt.mpr late)

end Window

/-! ## The race that was lost -/

/-- Why a write did not land, if the exchange is one that did not. -/
def refusal? : Exchange Call Call.Answer → Option StoreError
  | ⟨.update _ _, answer⟩ =>
    match (answer : Except StoreError Unit) with
    | .error e => some e
    | .ok _ => none
  | _ => none

/-- **The law of a payment that lost the race**: once its write did not land it asks nothing more,
and tells what the store said. -/
def loss (v : Visit) : Law Call Call.Answer Reply where
  asks past _ := ∀ id method, v.request = .pay id method → ∀ x ∈ past, refusal? x = none
  ends past r := ∀ id method, v.request = .pay id method → ∀ x ∈ past, ∀ e, refusal? x = some e →
    r = .transaction (.error (.ofStore e))

section Loss

variable {id : Uuid} {method : Method}

/-- Whatever is told while no write was refused is within the law. -/
theorem keeps_loss_done {v : Visit} {past : Past} {r : Reply}
    (h : ∀ x ∈ past, refusal? x = none) : (Program.done r).Keeps (loss v) past := by
  intro _ _ _ x hx e he
  rw [h x hx] at he
  cases he

theorem keeps_loss_pay (draw : Draw) (outcomes : Outcomes) :
    ((Request.pay id method).program draw).Keeps (loss ⟨.pay id method, draw, outcomes⟩) [] := by
  refine ⟨fun _ _ _ => by simp, ?_⟩
  rintro (e | v)
  · exact keeps_loss_done (by simp [refusal?])
  · simp only
    cases he : v.ensureCanBecome .paid with
    | error e => exact keeps_loss_done (by simp [refusal?])
    | ok _ =>
      refine ⟨fun _ _ _ => by simp [refusal?], ?_⟩
      rintro (e | transaction)
      · exact keeps_loss_done (by simp [refusal?])
      · simp only [settle]
        cases hm : v.markPaid transaction method draw.now with
        | error e => exact keeps_loss_done (by simp [refusal?])
        | ok w =>
          refine ⟨fun _ _ _ => by simp [refusal?], ?_⟩
          rintro (e | _)
          · intro _ _ _ x hx e' he'
            simp only [List.nil_append, List.cons_append, List.mem_cons, List.not_mem_nil,
              or_false] at hx
            rcases hx with rfl | rfl | rfl
            · cases he'
            · cases he'
            · obtain rfl := Option.some.inj he'
              rfl
          · refine ⟨fun _ _ _ => by simp [refusal?], fun _ => ?_⟩
            refine ⟨fun _ _ _ => by simp [refusal?], ?_⟩
            rintro (e | _) <;> exact keeps_loss_done (by simp [refusal?])

/-- **Every visit keeps the law of a payment that lost the race**; it binds payments only. -/
theorem keeps_loss (v : Visit) : (atStore.program v).Keeps (loss v) [] := by
  obtain ⟨request, draw, outcomes⟩ := v
  cases request with
  | pay id method => exact keeps_loss_pay draw outcomes
  | place _ _ | get _ | cancel _ | assemble _ =>
    refine Program.keeps_of_forall (fun _ _ => ?_) (fun _ _ => ?_) _ _
    · intro _ _ h
      cases h
    · intro _ _ h
      cases h

/-- A payment within the law of the lost race asks nothing more and tells what the store said. -/
theorem endsWith_of_within {v : Visit} {stage : Stage Call Call.Answer Reply} {past : Past}
    {w : Order} {expected : Status} {e : StoreError} (request : v.request = .pay id method)
    (lost : refused w expected e ∈ past) (h : stage.Within (loss v) past) :
    stage.EndsWith (.transaction (.error (.ofStore e))) := by
  cases stage with
  | underway p =>
    cases p with
    | done r => exact congrArg Program.done (h id method request _ lost e rfl)
    | ask q next => cases h.1 id method request _ lost
  | returned r => exact h id method request _ lost e rfl
  | abandoned => trivial

variable {s : Store} {moves : List (Move Visit Instant)} {who : Nat} {v : Visit} {w : Order}
  {expected : Status} {e : StoreError} {stage : Stage Call Call.Answer Reply}
  {ys zs : List (Exchange Call Call.Answer)}

/-- **All the exchanges of a payment that lost the race**: it looked, charged and was refused. -/
theorem own_of_refused (request : v.request = .pay id method)
    (arrived : (deskAt s moves).visits[who]? = some (v, stage))
    (hown : own who (deskAt s moves).exchanges = ys ++ refused w expected e :: zs) :
    zs = [] ∧ ∃ o transaction, ys = [loaded id o, charged o.id o.user method transaction] ∧
      o.status = .pendingPayment ∧ expected = .pendingPayment ∧ w.id = o.id := by
  constructor
  · rcases zs with - | ⟨x, zs⟩
    · rfl
    · have hlater : own who (deskAt s moves).exchanges =
          (ys ++ [refused w expected e]) ++ x :: zs := by simp [hown]
      cases Traffic.asks_of_own keeps_loss arrived hlater id method request (refused w expected e)
        (by simp)
  · have hasks : Asks v.draw v.request ys (.update w expected) :=
      Traffic.asks_of_own keeps_atStore arrived hown
    rw [request] at hasks
    cases hasks with
    | @write _ _ o _ _ writes same =>
      cases writes with
      | @pay _ _ transaction _ _ paid =>
        obtain ⟨hs, rfl⟩ := Order.markPaid_eq_ok_iff.mp paid
        exact ⟨o, transaction, rfl, hs, same.symm.trans hs, rfl⟩

/-- **The race is lost to somebody who moved the order**: it was not removed, so the store met a
status that is not the expected one. -/
theorem conflict_of_refused (request : v.request = .pay id method)
    (arrived : (deskAt s moves).visits[who]? = some (v, stage))
    (hown : own who (deskAt s moves).exchanges = ys ++ refused w expected e :: zs) :
    ∃ status, status ≠ .pendingPayment ∧ e = .conflict id .pendingPayment status := by
  obtain ⟨-, o, transaction, rfl, hpending, rfl, hw⟩ := own_of_refused request arrived hown
  obtain ⟨middle, m, after, u, rfl, hys, hwrite⟩ := Traffic.moment hown
  obtain ⟨before, m', after', u', rfl, -, hload⟩ :=
    Traffic.moment (show _ = [] ++ loaded id o :: _ from hys)
  have hfind := (answers_of_asked hload).find?
  obtain ⟨cur, hcur, -⟩ := stored_later hfind (m' :: after')
  obtain rfl : w.id = id := hw.trans (Store.id_of_find? hfind)
  exact ⟨cur.status, (answers_of_asked hwrite).conflict hcur⟩

/-- **How a payment ends that lost the race.** It tells the status that the store met, has announced
nothing, and has left the store as it was with each of its moves. -/
theorem lost_payment (request : v.request = .pay id method)
    (arrived : (deskAt s moves).visits[who]? = some (v, stage))
    (lost : (who, refused w expected e) ∈ (deskAt s moves).exchanges) :
    (∃ status, status ≠ .pendingPayment ∧
        stage.EndsWith (.transaction (.error (.invalidStatus id status)))) ∧
      (∀ event answer, (who, ⟨.publish event, answer⟩) ∉ (deskAt s moves).exchanges) ∧
      ∀ before now, before ++ [.proceed who now] <+: moves →
        (deskAt s (before ++ [.proceed who now])).state = (deskAt s before).state := by
  obtain ⟨ys, zs, hown⟩ := List.append_of_mem (mem_own.mpr lost)
  obtain ⟨status, hstatus, rfl⟩ := conflict_of_refused request arrived hown
  obtain ⟨rfl, o, transaction, rfl, -, -, -⟩ := own_of_refused request arrived hown
  have hthree {x : Exchange Call Call.Answer} (hx : x ∈ own who (deskAt s moves).exchanges) :
      x = loaded id o ∨ x = charged o.id o.user method transaction ∨
        x = refused w expected (.conflict id .pendingPayment status) := by
    rw [hown] at hx
    simpa using hx
  refine ⟨⟨status, hstatus, ?_⟩, ?_, ?_⟩
  · exact endsWith_of_within request (mem_own.mpr lost)
      ((Traffic.lawful_run keeps_loss s moves).within arrived)
  · intro event answer h
    rcases hthree (mem_own.mpr h) with h | h | h <;> cases h
  · rintro before now ⟨after, rfl⟩
    have hstep := Traffic.asked_of_proceed atStore (deskAt s before) who now
    rw [← Traffic.run_snoc] at hstep
    rcases hstep with hstate | ⟨u, x, hasked⟩
    · exact hstate
    · -- what was asked is one of the three
      have hx : x ∈ own who (deskAt s (before ++ [.proceed who now])).exchanges := by
        simp [hasked.own]
      have hlater := (own_mono (Traffic.exchanges_prefix_append atStore _ _ after)).subset hx
      refine (answers_of_asked hasked).still ?_ ?_
      · rcases hthree hlater with rfl | rfl | rfl <;> simp
      · rcases hthree hlater with rfl | rfl | rfl <;> intro w' expected' h <;> cases h

end Loss

/-- **Charges fall within a window**, in every traffic, whatever the store was at its beginning.
Each visit charges at most once, and only for an order that was stored as waiting for its payment
at a moment inside the visit before the charge; what is charged for is that order, for the user it
is stored with from then on. Once an order no longer waits for its payment, nobody who arrives later
charges for it. Whoever charged and then lost the race tells the status that the store met, which is
another one, announces nothing, and leaves the store as it was with each of its moves. -/
theorem charged_in_window (s : Store) (moves more : List (Move Visit Instant)) :
    (∀ who, (own who (deskAt s moves).exchanges).countP charges ≤ 1) ∧
      (∀ who id user method answer,
        (who, ⟨.charge id user method, answer⟩) ∈ (deskAt s moves).exchanges →
        (∃ before after v p o, moves = before ++ after ∧ v.request = .pay id method ∧
          (deskAt s before).visits[who]? = some (v, .underway p) ∧
          own who (deskAt s before).exchanges = [] ∧
          (deskAt s before).state.find? id = some o ∧ o.status = .pendingPayment) ∧
        ∃ o, (deskAt s (moves ++ more)).state.find? id = some o ∧ o.user = user) ∧
      (∀ id o, (deskAt s moves).state.find? id = some o → o.status ≠ .pendingPayment →
        ∀ who user method answer, (deskAt s moves).visits.length ≤ who →
          (who, ⟨.charge id user method, answer⟩) ∉ (deskAt s (moves ++ more)).exchanges) ∧
      ∀ who id user method transaction w expected e,
        (who, charged id user method transaction) ∈ (deskAt s moves).exchanges →
        (who, refused w expected e) ∈ (deskAt s moves).exchanges →
        (∃ v stage status, (deskAt s moves).visits[who]? = some (v, stage) ∧
          v.request = .pay id method ∧ status ≠ .pendingPayment ∧
          stage.EndsWith (.transaction (.error (.invalidStatus id status)))) ∧
        (∀ event answer, (who, ⟨.publish event, answer⟩) ∉ (deskAt s moves).exchanges) ∧
        ∀ before now, before ++ [.proceed who now] <+: moves →
          (deskAt s (before ++ [.proceed who now])).state = (deskAt s before).state := by
  refine ⟨charge_once s moves, ?_, ?_, ?_⟩
  · intro who id user method answer h
    obtain ⟨before, after, v, p, o, rfl, request, standing, hnil, hfind, hpending, rfl⟩ :=
      charge_moment h
    obtain ⟨o', hfind', hev⟩ := stored_later hfind (after ++ more)
    rw [← List.append_assoc] at hfind'
    exact ⟨⟨before, after, v, p, o, rfl, request, standing, hnil, hfind, hpending⟩, o', hfind',
      hev.identity.user⟩
  · intro id o stored left who user method answer late
    exact not_charged_later stored left late more answer
  · intro who id user method transaction w expected e hcharged hlost
    obtain ⟨before, after, v, p, o, rfl, request, standing, -⟩ := charge_moment hcharged
    obtain ⟨stage, arrived⟩ := Traffic.visit_later standing after
    obtain ⟨⟨status, hstatus, hends⟩, hsilent, hstill⟩ := lost_payment request arrived hlost
    exact ⟨⟨v, stage, status, arrived, request, hstatus, hends⟩, hsilent, hstill⟩

/-- The payment of the order that was overtaken by its cancellation. -/
def lateOrder : Order :=
  Store.revised (Order.placed .nil .epoch "u-1" ["p-1"] 1) .paid (some "t-1") (some .card) .epoch

theorem charged_in_window_overtaken :
    (0, charged .nil "u-1" .card "t-1") ∈ (deskAt oneOrder overtaken).exchanges ∧
      (0, refused lateOrder .pendingPayment (.conflict .nil .pendingPayment .cancelled)) ∈
        (deskAt oneOrder overtaken).exchanges ∧
      ∃ v stage status, (deskAt oneOrder overtaken).visits[0]? = some (v, stage) ∧
        v.request = .pay .nil .card ∧ status ≠ .pendingPayment ∧
        stage.EndsWith (.transaction (.error (.invalidStatus .nil status))) := by
  have hcharged : (0, charged .nil "u-1" .card "t-1") ∈ (deskAt oneOrder overtaken).exchanges :=
    List.mem_of_getElem? (i := 4) rfl
  have hlost : (0, refused lateOrder .pendingPayment
      (.conflict .nil .pendingPayment .cancelled)) ∈ (deskAt oneOrder overtaken).exchanges :=
    List.mem_of_getElem? (i := 5) rfl
  obtain ⟨-, -, -, lost⟩ := charged_in_window oneOrder overtaken []
  exact ⟨hcharged, hlost, (lost 0 _ _ _ _ _ _ _ hcharged hlost).1⟩

end Desk

end OrderDesk
