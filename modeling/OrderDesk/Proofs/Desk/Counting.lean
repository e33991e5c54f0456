import Mathlib.Data.List.Count
import OrderDesk.Proofs.Desk.Assembling
import OrderDesk.Proofs.Desk.Ledger

/-!
# What is counted at the desk

A write that lands is counted by the very next exchange of its visit: a new order, or a change of
status. An order that is stored once more as it was is not counted. The counters add up what was
counted, and the orders in the store add up what landed. Totals are counted as well, but whether
they are has nothing to do with how many orders there are.

## Main definitions

* `due`, `tally?`: what has to be counted after an exchange, and what a question counts
* `owed`: what a visit has yet to count
* `leaving`: the law that whoever leaves owes nothing
* `Status.hasEntered`: the statuses that an order has been moved to

## Main results

* `owed_of_asks`: a request counts exactly what it owes
* `leaves_program`: whoever leaves the desk owes nothing
* `Store.countP_revise`: what a write does to the number of orders in some statuses
* `Ledger.enter_of_answer`, `Ledger.count_of_answer`: what an exchange adds to the store and to the
  counters
-/

namespace OrderDesk

namespace Status

/-- **Whether an order of some status has been moved to another one** since it was placed. -/
def hasEntered (current : Status) : Status → Bool
  | .pendingPayment => false
  | .paid => current = .paid ∨ current = .assembled
  | .cancelled => current = .cancelled
  | .assembled => current = .assembled

theorem hasEntered_pendingPayment (s : Status) : Status.pendingPayment.hasEntered s = false := by
  cases s <;> decide

/-- A legal step enters one status and leaves the others as entered as they were. -/
theorem hasEntered_of_canBecome {v w : Status} (h : v.canBecome w = true) (s : Status) :
    (w.hasEntered s).toNat = (v.hasEntered s).toNat + if w = s then 1 else 0 := by
  revert h
  cases v <;> cases w <;> cases s <;> decide

theorem ne_of_canBecome {v w : Status} (h : v.canBecome w = true) : w ≠ v := by
  revert h
  cases v <;> cases w <;> decide

end Status

namespace Store

variable {s : Store} {id : Uuid} {cur : Order}

/-- The other orders are not touched by a write. -/
theorem filter_ne_revise (s : Store) (id : Uuid) (status : Status) (transaction : Option String)
    (method : Option Method) (now : Instant) :
    ((s.revise id status transaction method now).orders.filter fun o => !decide (o.id = id)) =
      s.orders.filter fun o => !decide (o.id = id) := by
  simp only [revise]
  induction s.orders with
  | nil => rfl
  | cons o os ih =>
    by_cases h : o.id = id
    · have hid : (revised o status transaction method now).id = id := h
      simp [h, hid, ih]
    · simp [h, ih]

/-- **What a write does to the number of orders in some statuses**: one order counts by its new
status instead of the one that it had. -/
theorem countP_revise (found : s.find? id = some cur) (p : Status → Bool) (status : Status)
    (transaction : Option String) (method : Option Method) (now : Instant) :
    (s.revise id status transaction method now).orders.countP (fun o => p o.status) +
        (p cur.status).toNat =
      s.orders.countP (fun o => p o.status) + (p status).toNat := by
  have hone (b : Bool) : (if b = true then 1 else 0) = b.toNat := by cases b <;> rfl
  have hsplit (t : Store) : t.orders.countP (fun o => p o.status) =
      (t.find? id).toList.countP (fun o => p o.status) +
        (t.orders.filter fun o => !decide (o.id = id)).countP (fun o => p o.status) := by
    rw [← filter_id_eq]
    exact List.countP_eq_countP_filter_add ..
  rw [hsplit (s.revise ..), hsplit s, filter_ne_revise, find?_revise, found]
  simp only [Option.map_some, if_true, Option.toList_some, List.countP_singleton, revised, hone]
  omega

end Store

namespace Desk

/-! ## What a visit owes -/

/-- **What has to be counted** once an exchange was had: a new order, or a change of status. -/
def due : Exchange Call Call.Answer → Option Tally
  | ⟨.create _, answer⟩ =>
    match (answer : Except StoreError Order) with
    | .ok _ => some .created
    | .error _ => none
  | ⟨.update w expected, answer⟩ =>
    match (answer : Except StoreError Unit) with
    | .ok _ => if w.status = expected then none else some (.moved w.status)
    | .error _ => none
  | _ => none

/-- What a question counts, apart from totals. -/
def tally? : Call → Option Tally
  | .count .created => some .created
  | .count (.moved status) => some (.moved status)
  | _ => none

/-- **What a visit owes**: its last exchange was a write that landed, and it has yet to count it. -/
def owed (past : Past) : Option Tally :=
  past.getLast?.bind due

/-- **A request counts exactly what it owes**, and nothing else comes before. -/
theorem owed_of_asks {draw : Draw} {request : Request} {past : Past} {call : Call}
    (h : Asks draw request past call) : owed past = tally? call := by
  cases h with
  | listParts | load => rfl
  | create | charge => rfl
  | countCreated | countEarned => rfl
  | write writes => cases writes <;> rfl
  | countMoved writes moved =>
    simp [owed, due, written, tally?, Status.ne_of_canBecome moved]
  | publish paid => rfl

/-- **At the end of an assembly** nothing is owed. -/
theorem owed_of_assembling {id : Uuid} {now : Instant} {calls : Past}
    {result : Except DeskError Unit} (h : Assembling id now calls result) : owed calls = none := by
  cases h with
  | missed => rfl
  | again assembled => simp [owed, due, loaded, written, assembled]
  | notAgain => rfl
  | unpaid => rfl
  | applied => rfl
  | beaten => rfl
  | overtaken => rfl

/-! ## Nothing is owed at the end -/

/-- **The law of leaving**: whoever leaves owes nothing. -/
def leaving {R : Type} : Law Call Call.Answer R where
  asks _ _ := True
  ends past _ := owed past = none

section Leaving

variable (draw : Draw)

theorem leaves_place (user : String) (ids : List String) :
    ((Request.place user ids).program draw).Keeps leaving [] := by
  simp only [Request.program, Desk.place]
  cases ids.isEmpty with
  | true => rfl
  | false =>
    refine ⟨trivial, ?_⟩
    rintro (e | parts)
    · rfl
    · simp only
      cases price ids.length parts with
      | error e => rfl
      | ok total =>
        refine ⟨trivial, ?_⟩
        rintro (e | stored)
        · rfl
        · exact ⟨trivial, fun _ => ⟨trivial, fun _ => rfl⟩⟩

theorem leaves_get (id : Uuid) : ((Request.get id).program draw).Keeps leaving [] := by
  refine ⟨trivial, ?_⟩
  rintro (e | v)
  · rfl
  · rfl

theorem leaves_cancel (id : Uuid) : ((Request.cancel id).program draw).Keeps leaving [] := by
  refine ⟨trivial, ?_⟩
  rintro (e | v)
  · rfl
  · simp only
    cases v.cancel draw.now with
    | error e => rfl
    | ok w =>
      refine ⟨trivial, ?_⟩
      rintro (e | _)
      · rfl
      · exact ⟨trivial, fun _ => rfl⟩

/-- An assembly ends in one of its seven ways, and none of them leaves a debt. -/
theorem leaves_assemble (id : Uuid) :
    ((Request.assemble id).program draw).Keeps leaving [] := by
  refine Program.Keeps.map ?_ ?_ (keeps_assemblingLaw id draw.now)
  · exact fun _ => trivial
  · exact owed_of_assembling

theorem leaves_pay (id : Uuid) (method : Method) :
    ((Request.pay id method).program draw).Keeps leaving [] := by
  refine ⟨trivial, ?_⟩
  rintro (e | v)
  · rfl
  · simp only
    cases v.ensureCanBecome .paid with
    | error e => rfl
    | ok _ =>
      refine ⟨trivial, ?_⟩
      rintro (e | transaction)
      · rfl
      · simp only [settle]
        cases v.markPaid transaction method draw.now with
        | error e => rfl
        | ok w =>
          refine ⟨trivial, ?_⟩
          rintro (e | _)
          · rfl
          · refine ⟨trivial, fun _ => ⟨trivial, ?_⟩⟩
            rintro (e | _)
            · rfl
            · rfl

end Leaving

/-- **Whoever leaves the desk owes nothing.** -/
theorem leaves_program (v : Visit) : v.program.Keeps leaving [] := by
  obtain ⟨request, draw, outcomes⟩ := v
  cases request with
  | place user ids => exact leaves_place draw user ids
  | get id => exact leaves_get draw id
  | pay id method => exact leaves_pay draw id method
  | cancel id => exact leaves_cancel draw id
  | assemble id => exact leaves_assemble draw id

/-! ## What an exchange adds to a ledger -/

namespace Ledger

variable {draw : Draw} {request : Request} {past : Past} {call : Call} {o : Outcomes}
  {now : Instant} {l l' : Ledger} {answer : call.Answer}

/-- Whether something that is counted is a new order. -/
def isCreated : Tally → Bool
  | .created => true
  | .earned _ | .moved _ => false

/-- Whether something that is counted is a step to a status. -/
def isMoved (status : Status) : Tally → Bool
  | .created | .earned _ => false
  | .moved s => s = status

/-- What is answered when something is counted: the counter took it. -/
theorem answer_count {tally : Tally} {counted : Unit}
    (answered : Ledger.answer o now (.count tally) l = (some counted, l')) :
    tally.grows = true ∧ l' = { l with counters := l.counters.add tally } := by
  simp only [Ledger.answer] at answered
  split at answered
  · rename_i counters hcount
    obtain ⟨grows, rfl⟩ := Counters.count_eq_some_iff.mp hcount
    exact ⟨grows, (answered_inj answered).2.symm⟩
  · cases (Prod.mk.inj answered).1

/-- **What an exchange adds to the counters** is what its question counts. -/
theorem count_of_answer (answered : Ledger.answer o now call l = (some answer, l')) :
    l'.counters.created = l.counters.created + ((tally? call).any isCreated).toNat ∧
      ∀ s, l'.counters.moved s = l.counters.moved s + ((tally? call).any (isMoved s)).toNat := by
  cases call with
  | count tally =>
    obtain ⟨-, rfl⟩ := answer_count answered
    cases tally with
    | created => exact ⟨rfl, fun _ => rfl⟩
    | earned total => exact ⟨rfl, fun _ => rfl⟩
    | moved status =>
      refine ⟨rfl, fun s => ?_⟩
      by_cases h : s = status
      · simp [tally?, isMoved, Counters.add, h]
      · simp [tally?, isMoved, Counters.add, h, Ne.symm h]
  | listParts _ | charge _ _ _ | publish _ | create _ | load _ | update _ _ =>
    obtain rfl := (Prod.mk.inj answered).2
    exact ⟨rfl, fun _ => rfl⟩

/-- **What an exchange adds to the store** is what has to be counted after it: one order more, or an
order that entered a status. -/
theorem enter_of_answer (asks : Asks draw request past call)
    (answered : Ledger.answer o now call l = (some answer, l')) :
    l'.store.orders.length =
        l.store.orders.length + ((due ⟨call, answer⟩).any isCreated).toNat ∧
      ∀ s, l'.store.orders.countP (fun o => o.status.hasEntered s) =
        l.store.orders.countP (fun o => o.status.hasEntered s) +
          ((due ⟨call, answer⟩).any (isMoved s)).toNat := by
  cases asks with
  | listParts | load | charge | publish =>
    obtain rfl := (Prod.mk.inj answered).2
    exact ⟨rfl, fun _ => rfl⟩
  | countCreated | countEarned | countMoved =>
    obtain ⟨-, rfl⟩ := answer_count answered
    exact ⟨rfl, fun _ => rfl⟩
  | @create user ids parts total priced =>
    simp only [Ledger.answer, Outcomes.answer] at answered
    cases hcreate : l.store.create (Order.placed draw.id draw.now user ids total) o.draws with
    | none => simp [hcreate] at answered
    | some made =>
      obtain ⟨stored, store⟩ := made
      simp only [hcreate] at answered
      obtain ⟨rfl, rfl⟩ := answered_inj answered
      obtain ⟨-, hstored, -⟩ := Store.create_eq_some hcreate
      have hstatus : stored.status = .pendingPayment := by
        rw [hstored]
        rfl
      simp [Store.orders_of_create hcreate, due, isCreated, isMoved, hstatus,
        Status.hasEntered_pendingPayment]
  | @write _ _ v w expected writes same =>
    subst same
    simp only [Ledger.answer, Outcomes.answer] at answered
    cases hupdate : l.store.update w v.status now with
    | error e =>
      simp only [hupdate] at answered
      obtain ⟨rfl, rfl⟩ := answered_inj answered
      exact ⟨rfl, fun _ => rfl⟩
    | ok store =>
      simp only [hupdate] at answered
      obtain ⟨rfl, rfl⟩ := answered_inj answered
      obtain ⟨cur, found, hcur, rfl⟩ := Store.update_eq_ok_iff.mp hupdate
      refine ⟨?_, fun s => ?_⟩
      · by_cases h : w.status = v.status <;> simp [Store.revise, due, h, isCreated]
      · have hcount :=
          Store.countP_revise found (·.hasEntered s) w.status w.transaction w.method now
        rw [hcur] at hcount
        rcases writes.succeeds.status with h | h
        · simp [due, h] at hcount ⊢
          omega
        · have hdue : due (written w v.status) = some (.moved w.status) :=
            if_neg (Status.ne_of_canBecome h)
          have hentered := Status.hasEntered_of_canBecome h s
          simp only [written] at hdue
          rw [hdue, Option.any_some, isMoved]
          by_cases hs : w.status = s <;> simp [hs] at hentered hcount ⊢ <;> omega

end Ledger

end Desk

end OrderDesk
