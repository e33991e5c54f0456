import Mathlib.Algebra.BigOperators.Group.Finset.Piecewise
import OrderDesk.Proofs.Desk.Counting
import OrderDesk.Proofs.Shop.Assembly

/-!
# Counters that agree with the store

The counters of a shop are behind the store by what is owed: each write that landed is counted by
the very next exchange of whoever wrote, and nothing else is counted. Whenever nobody stands between
the two, the counters tell how many orders there are, and in which statuses.

## Main definitions

* `countedAt`: the traffic of a shop with counters
* `owed`, `tallied`: what a guest has yet to count, and what it counts next
* `counting`: the law that a guest counts just what it owes
* `Settled`: nobody stands between a write that landed and its count

## Main results

* `counts_guest`: every guest counts just what it owes
* `recorded_counted`: the store and the counters add up what the exchanges entered and counted
* `counters_agree`: whenever nobody stands between a write that landed and its count, the counters
  agree with the store
-/

namespace OrderDesk

/-- **All exchanges are counted** by counting those of each visit. -/
theorem countP_eq_sum_own {Q : Type} {A : Q → Type} (p : Exchange Q A → Bool) (visits : Finset Nat)
    (xs : List (Nat × Exchange Q A)) (among : ∀ x ∈ xs, x.1 ∈ visits) :
    xs.countP (fun x => p x.2) = ∑ who ∈ visits, (own who xs).countP p := by
  induction xs with
  | nil => simp
  | cons x xs ih =>
    have hown (who : Nat) : (own who (x :: xs)).countP p =
        (own who xs).countP p + if x.1 = who then (if p x.2 then 1 else 0) else 0 := by
      by_cases h : x.1 = who <;> simp [own, h, List.countP_cons]
    simp only [hown, Finset.sum_add_distrib, Finset.sum_ite_eq, among x (by simp), if_true,
      List.countP_cons, ih fun y hy => among y (List.mem_cons_of_mem _ hy)]

namespace Shop

open Consumer (Question atDesk loop)
open Desk (Draw Ledger Visit Reply due tally? answered_inj)

/-- **The shop with counters**, after some moves. It begins with no orders and nothing counted. -/
abbrev countedAt (moves : List (Move Guest (Occasion Instant))) :
    Traffic Guest Question Question.Answer Farewell Ledger :=
  (Traffic.opened ⟨.empty, .zero, []⟩).run (rules Ledger.answer) moves

/-- **What a guest owes**: its last exchange was a write that landed, and it has yet to count it. -/
def owed (past : List (Exchange Question Question.Answer)) : Option Tally :=
  (past.getLast?.bind desk?).bind due

/-- **What a guest counts** by a question, apart from totals. -/
def tallied : Question → Option Tally
  | .desk call => tally? call
  | .receive | .commit _ => none

variable {R : Type} {past : List (Exchange Question Question.Answer)} {calls : Desk.Past}

/-! ## Every guest counts what it owes -/

/-- **The law of counting**: what is owed is counted next, nothing else but totals is ever counted,
and whoever leaves owes nothing. -/
def counting : Law Question Question.Answer R where
  asks past q := owed past = tallied q
  ends past _ := owed past = none

/-- What is owed at the desk is owed by the guest. -/
theorem owed_snoc {call : Call} (a : call.Answer) :
    owed (past ++ [⟨.desk call, a⟩]) = Desk.owed (calls ++ [⟨call, a⟩]) := by
  simp [owed, Desk.owed, desk?]

theorem owed_receive (a : Question.receive.Answer) : owed (past ++ [⟨.receive, a⟩]) = none := by
  simp [owed, desk?]

theorem owed_commit {m : Message} (a : (Question.commit m).Answer) :
    owed (past ++ [⟨.commit m, a⟩]) = none := by
  simp [owed, desk?]

theorem counting_of_asks {draw : Draw} {request : Desk.Request} {call : Call}
    (asks : Desk.Asks draw request calls call) (same : owed past = Desk.owed calls) :
    (counting (R := R)).asks past (.desk call) :=
  same.trans (Desk.owed_of_asks asks)

theorem counts_customer (v : Visit) {p : Program Call Call.Answer Reply}
    (h : p.Keeps (Desk.law v) calls) (leaves : p.Keeps Desk.leaving calls)
    (same : owed past = Desk.owed calls) : ((atDesk p).map Farewell.told).Keeps counting past := by
  induction p generalizing calls past with
  | done r => exact same.trans leaves
  | ask call next ih =>
    exact ⟨counting_of_asks h.1 same, fun a => ih a (h.2 a) (leaves.2 a) (owed_snoc a)⟩

/-- At the desk a reader counts what it owes, and leaves without a debt. -/
theorem counts_atDesk {id : Uuid} {now : Instant}
    {k : Except DeskError Unit → Program Question Question.Answer R}
    (after : ∀ {result past}, owed past = none → (k result).Keeps counting past)
    {p : Action Unit} (h : (Desk.assemble id now).Reaches calls p)
    (same : owed past = Desk.owed calls) : ((atDesk p).bind k).Keeps counting past := by
  induction p generalizing calls past with
  | done result =>
    exact after (same.trans (Desk.owed_of_assembling (Desk.assembling_of_reaches h)))
  | ask call next ih =>
    exact ⟨counting_of_asks (Desk.asks_of_reaches h) same,
      fun a => ih a (h.snoc a) (owed_snoc a)⟩

/-- A reader without a debt counts what it will owe. -/
theorem counts_loop (clock : List Instant) (nothing : owed past = none) :
    (loop clock).Keeps counting past := by
  induction clock generalizing past with
  | nil => exact nothing
  | cons now clock ih =>
    refine ⟨nothing, ?_⟩
    rintro (e | - | m)
    · exact owed_receive _
    · exact owed_receive _
    · simp only [Consumer.handle]
      cases m.decodeAssembled with
      | error e => exact owed_receive _
      | ok event =>
        rw [Program.bind_assoc]
        refine counts_atDesk (fun {result past} nothing => ?_) (.here _) (owed_receive _)
        cases Consumer.handled event result with
        | error e => exact nothing
        | ok _ =>
          refine ⟨nothing, ?_⟩
          rintro (e | -)
          · exact owed_commit _
          · exact ih (owed_commit _)

/-- **Every guest counts just what it owes**, and leaves without a debt. -/
theorem counts_guest (g : Guest) : g.program.Keeps counting [] := by
  cases g with
  | customer v => exact counts_customer v (Desk.keeps_law v) (Desk.leaves_program v) rfl
  | reader clock =>
    refine Program.Keeps.map ?_ ?_ (counts_loop clock rfl)
    · exact fun h => h
    · exact fun h => h

/-! ## What was entered and what was counted -/

/-- Whether an exchange entered something into the store that has to be counted. -/
def entered (p : Tally → Bool) (x : Exchange Question Question.Answer) : Bool :=
  ((desk? x).bind due).any p

/-- Whether an exchange counted something. -/
def told (p : Tally → Bool) (x : Exchange Question Question.Answer) : Bool :=
  (tallied x.question).any p

/-- **What is asked counts** just what is owed. -/
theorem told_of_asks {q : Question} (a : q.Answer) (asks : (counting (R := R)).asks past q)
    (p : Tally → Bool) : told p ⟨q, a⟩ = (owed past).any p :=
  congrArg (Option.any p) asks.symm

theorem countP_concat {α : Type} (p : α → Bool) (xs : List α) (x : α) :
    (xs ++ [x]).countP p = xs.countP p + (p x).toNat := by
  rw [List.countP_append, List.countP_singleton]
  cases p x <;> rfl

/-- **Each visit has counted** what it entered, except for what it owes. -/
theorem entered_own (moves : List (Move Guest (Occasion Instant))) (who : Nat) (p : Tally → Bool) :
    (own who (countedAt moves).exchanges).countP (entered p) =
      (own who (countedAt moves).exchanges).countP (told p) +
        ((owed (own who (countedAt moves).exchanges)).any p).toNat := by
  refine Traffic.exchange_invariant counts_guest
    (I := fun _ xs => (own who xs).countP (entered p) =
      (own who xs).countP (told p) + ((owed (own who xs)).any p).toNat) ?_ rfl moves
  intro other g c q l a l' xs asks answered inv
  by_cases ho : other = who
  · subst ho
    have howed : owed (own other xs ++ [⟨q, a⟩]) = (desk? ⟨q, a⟩).bind due := by simp [owed]
    rw [own_append, own_self, countP_concat, countP_concat, told_of_asks a asks, howed, inv]
    rfl
  · simpa [own_other ho] using inv

/-- **The store and the counters add up** what the exchanges entered and counted. -/
structure Recorded (l : Ledger) (xs : List (Nat × Exchange Question Question.Answer)) : Prop where
  placed : l.store.orders.length = xs.countP fun x => entered Ledger.isCreated x.2
  created : l.counters.created = xs.countP fun x => told Ledger.isCreated x.2
  hasEntered : ∀ s, l.store.orders.countP (fun o => o.status.hasEntered s) =
    xs.countP fun x => entered (Ledger.isMoved s) x.2
  moved : ∀ s, l.counters.moved s = xs.countP fun x => told (Ledger.isMoved s) x.2

theorem Recorded.exchange {l l' : Ledger} {xs : List (Nat × Exchange Question Question.Answer)}
    (h : Recorded l xs) {who : Nat} {g : Guest} {c : Occasion Instant} {q : Question} {a : q.Answer}
    (asks : g.law.asks past q) (answered : answer Ledger.answer g c q l = (some a, l')) :
    Recorded l' (xs ++ [(who, ⟨q, a⟩)]) := by
  cases q with
  | receive | commit =>
    obtain ⟨-, rfl⟩ := answered_inj answered
    constructor <;>
      simp [h.placed, h.created, h.hasEntered, h.moved, entered, told, tallied, desk?]
  | desk call =>
    obtain ⟨draw, request, hasks⟩ := asks_session asks
    obtain ⟨hplaced, hentered⟩ := Ledger.enter_of_answer hasks answered
    obtain ⟨hcreated, hmoved⟩ := Ledger.count_of_answer answered
    constructor
    · rw [hplaced, h.placed, countP_concat]
      rfl
    · rw [hcreated, h.created, countP_concat]
      rfl
    · intro s
      rw [hentered, h.hasEntered, countP_concat]
      rfl
    · intro s
      rw [hmoved, h.moved, countP_concat]
      rfl

theorem recorded_counted (moves : List (Move Guest (Occasion Instant))) :
    Recorded (countedAt moves).state (countedAt moves).exchanges :=
  Traffic.exchange_invariant keeps_guest (fun asks answered h => h.exchange asks answered)
    ⟨rfl, rfl, fun _ => rfl, fun _ => rfl⟩ moves

/-! ## Nobody is about to count -/

/-- **Whether a visit stands between a write that landed and its count**: it is about to count it, or
was abandoned when it was. -/
def between (past : List (Exchange Question Question.Answer)) :
    Stage Question Question.Answer Farewell → Bool
  | .underway (.ask q _) => (tallied q).isSome
  | .abandoned => (owed past).isSome
  | _ => false

/-- **Nobody stands between a write that landed and its count.** -/
def Settled (t : Traffic Guest Question Question.Answer Farewell Ledger) : Prop :=
  ∀ who, ∀ h : who < t.visits.length, between (own who t.exchanges) t.visits[who].2 = false

instance (t : Traffic Guest Question Question.Answer Farewell Ledger) : Decidable (Settled t) :=
  inferInstanceAs (Decidable (∀ who, ∀ h : who < t.visits.length,
    between (own who t.exchanges) t.visits[who].2 = false))

/-- **Whoever does not stand there** owes nothing. -/
theorem owed_of_within {stage : Stage Question Question.Answer Farewell}
    (within : stage.Within counting past) (h : between past stage = false) : owed past = none := by
  cases stage with
  | returned r => exact within
  | abandoned => simpa [between] using h
  | underway p =>
    cases p with
    | done r => exact within
    | ask q next =>
      exact within.1.trans (Option.not_isSome_iff_eq_none.mp (Bool.eq_false_iff.mp h))

/-- **If nobody stands there**, everything that was entered was counted. -/
theorem Settled.countP_entered {moves : List (Move Guest (Occasion Instant))}
    (settled : Settled (countedAt moves)) (p : Tally → Bool) :
    (countedAt moves).exchanges.countP (fun x => entered p x.2) =
      (countedAt moves).exchanges.countP fun x => told p x.2 := by
  have hamong : ∀ x ∈ (countedAt moves).exchanges,
      x.1 ∈ Finset.range (countedAt moves).visits.length := fun x hx =>
    Finset.mem_range.mpr
      ((Traffic.booked_run _ _ moves).exchanged (Traffic.mem_exchanges.mp hx))
  rw [countP_eq_sum_own (entered p) _ _ hamong, countP_eq_sum_own (told p) _ _ hamong]
  refine Finset.sum_congr rfl fun who hwho => ?_
  have hlt := Finset.mem_range.mp hwho
  have hwithin := (Traffic.lawful_run counts_guest _ moves).within
    (List.getElem?_eq_getElem hlt)
  rw [entered_own, owed_of_within hwithin (settled who hlt)]
  rfl

/-- **The counters agree with the store**, in every shop that began with no orders, whenever nobody
stands between a write that landed and its count. There are as many orders as were counted; those
that were paid for are paid or assembled, those that were cancelled are cancelled, those that were
assembled are assembled, and no step back to waiting was ever counted. -/
theorem counters_agree (moves : List (Move Guest (Occasion Instant)))
    (settled : Settled (countedAt moves)) :
    (countedAt moves).state.counters.created = (countedAt moves).state.store.orders.length ∧
      (countedAt moves).state.counters.moved .paid = (countedAt moves).state.store.orders.countP
        (fun o => o.status = .paid ∨ o.status = .assembled) ∧
      (countedAt moves).state.counters.moved .cancelled =
        (countedAt moves).state.store.orders.countP (fun o => o.status = .cancelled) ∧
      (countedAt moves).state.counters.moved .assembled =
        (countedAt moves).state.store.orders.countP (fun o => o.status = .assembled) ∧
      (countedAt moves).state.counters.moved .pendingPayment = 0 := by
  have hrecorded := recorded_counted moves
  have hmoved (s : Status) : (countedAt moves).state.counters.moved s =
      (countedAt moves).state.store.orders.countP (fun o => o.status.hasEntered s) := by
    rw [hrecorded.moved, hrecorded.hasEntered, settled.countP_entered]
  refine ⟨?_, hmoved .paid, hmoved .cancelled, hmoved .assembled, ?_⟩
  · rw [hrecorded.created, hrecorded.placed, settled.countP_entered]
  · rw [hmoved]
    exact List.countP_eq_zero.mpr fun _ _ => Bool.false_ne_true

theorem counters_agree_timely :
    Settled (countedAt timely) ∧ (countedAt timely).state.counters.created = 1 ∧
      (countedAt timely).state.counters.moved .paid = 1 ∧
      (countedAt timely).state.counters.moved .assembled = 1 := by
  have hsettled : Settled (countedAt timely) := by decide +kernel
  obtain ⟨hcreated, hpaid, -, hassembled, -⟩ := counters_agree timely hsettled
  rw [hcreated, hpaid, hassembled]
  exact ⟨hsettled, by decide +kernel, by decide +kernel, by decide +kernel⟩

end Shop

end OrderDesk
