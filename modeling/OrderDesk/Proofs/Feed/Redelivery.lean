import Mathlib.Data.List.Count
import OrderDesk.Proofs.Desk.Ledger
import OrderDesk.Proofs.Feed.Handling

/-!
# News that comes again, and in another order

A reader alone with a ledger handles a batch of news. What the batch leaves behind depends only on
which orders it names: each of them that was paid is assembled, once, and counted once; the others
stay what they are, but for the time at which they were last written.

## Main definitions

* `Order.unstamped`: an order without the time of its last change
* `Order.assembledBy`, `Ledger.Told`: what news about some orders does to an order and to a ledger
* `Batch`, `Consumer.read`: the reader over a batch of messages

## Main results

* `Ledger.told_of_assemble`: what one piece of news does
* `Ledger.Told.trans`: one piece of news after another
* `read_news`: a reader handles and commits every message of a batch of news
* `redelivery_harmless`: batches that name the same orders have the same effect
-/

namespace OrderDesk

/-- An order without the time of its last change. -/
def Order.unstamped (o : Order) : Order := { o with updatedAt := .epoch }

/-- **An order once there is news** that some orders are assembled: it is assembled if it was paid
and is one of them. -/
def Order.assembledBy (ids : List Uuid) (o : Order) : Order :=
  if o.id ∈ ids ∧ o.status = .paid then { o with status := .assembled } else o

/-- How many of some orders are paid. -/
def Store.paidAmong (s : Store) (ids : List Uuid) : Nat :=
  s.orders.countP fun o => o.id ∈ ids ∧ o.status = .paid

/-- The counters when some more orders were assembled. -/
def Counters.moreAssembled (c : Counters) (n : Nat) : Counters :=
  { c with moved := fun s => if s = .assembled then c.moved s + n else c.moved s }

namespace Order

@[simp] theorem unstamped_id (o : Order) : o.unstamped.id = o.id := rfl

@[simp] theorem unstamped_status (o : Order) : o.unstamped.status = o.status := rfl

@[simp] theorem assembledBy_id (ids : List Uuid) (o : Order) : (o.assembledBy ids).id = o.id := by
  unfold assembledBy
  split <;> rfl

theorem assembledBy_of_not {ids : List Uuid} {o : Order} (h : ¬ (o.id ∈ ids ∧ o.status = .paid)) :
    o.assembledBy ids = o :=
  if_neg h

/-- News does not look at times. -/
theorem assembledBy_unstamped (ids : List Uuid) (o : Order) :
    o.unstamped.assembledBy ids = (o.assembledBy ids).unstamped := by
  by_cases h : o.id ∈ ids ∧ o.status = .paid
  · simp [assembledBy, h, unstamped]
  · rw [assembledBy_of_not h, assembledBy_of_not (o := o.unstamped) h]

/-- News about one order after the other is news about all of them. -/
theorem assembledBy_cons (id : Uuid) (ids : List Uuid) (o : Order) :
    (o.assembledBy [id]).assembledBy ids = o.assembledBy (id :: ids) := by
  by_cases hid : o.id = id <;> by_cases hs : o.status = .paid <;> simp [assembledBy, hid, hs]

/-- Only which orders are named matters. -/
theorem assembledBy_congr {ids ids' : List Uuid} (h : ∀ id, id ∈ ids ↔ id ∈ ids') (o : Order) :
    o.assembledBy ids = o.assembledBy ids' := by
  simp only [assembledBy, h]

end Order

namespace Counters

@[simp] theorem moreAssembled_zero (c : Counters) : c.moreAssembled 0 = c := by
  simp [moreAssembled]

theorem moreAssembled_add (c : Counters) (m n : Nat) :
    (c.moreAssembled m).moreAssembled n = c.moreAssembled (m + n) := by
  simp only [moreAssembled, Counters.mk.injEq, true_and]
  funext s
  split
  · omega
  · rfl

theorem add_moved_assembled (c : Counters) : c.add (.moved .assembled) = c.moreAssembled 1 := rfl

end Counters

namespace Store

variable {s t : Store} {id : Uuid} {ids : List Uuid} {v : Order}

/-- **An order that is stored once more as assembled** has changed as by the news about it. -/
theorem unstamped_revise_assembled (h : s.find? id = some v)
    (hs : v.status = .paid ∨ v.status = .assembled) (now : Instant) :
    (s.revise id .assembled v.transaction v.method now).orders.map Order.unstamped =
      s.orders.map fun o => (o.assembledBy [id]).unstamped := by
  simp only [revise, List.map_map]
  refine List.map_congr_left fun o ho => ?_
  by_cases hid : o.id = id
  · -- ids are not shared, so this is the order that was found
    obtain rfl : o = v := List.inj_on_of_nodup_map s.nodup ho (List.mem_of_find?_eq_some h)
      (hid.trans (id_of_find? h).symm)
    rcases hs with hs | hs <;> simp [hid, hs, Order.assembledBy, Order.unstamped, revised]
  · simp [hid, Order.assembledBy]

/-- News about an order that is not paid changes nothing. -/
theorem unstamped_of_not_paid (h : s.find? id = some v) (hs : v.status ≠ .paid) :
    s.orders.map Order.unstamped = s.orders.map fun o => (o.assembledBy [id]).unstamped := by
  refine List.map_congr_left fun o ho => ?_
  rw [Order.assembledBy_of_not]
  rintro ⟨hid, hpaid⟩
  obtain rfl : o = v := List.inj_on_of_nodup_map s.nodup ho (List.mem_of_find?_eq_some h)
    ((List.mem_singleton.mp hid).trans (id_of_find? h).symm)
  exact hs hpaid

/-- One order is paid or it is not. -/
theorem paidAmong_singleton (h : s.find? id = some v) :
    s.paidAmong [id] = if v.status = .paid then 1 else 0 := by
  have hfilter : s.paidAmong [id] =
      (s.orders.filter fun o => o.id = id).countP fun o => o.status = .paid := by
    rw [List.countP_filter]
    refine List.countP_congr fun o _ => ?_
    simp [and_comm]
  rw [hfilter, filter_id_eq, h]
  by_cases hs : v.status = .paid
  · simp [hs]
  · simp [hs]

@[simp] theorem paidAmong_nil (s : Store) : s.paidAmong [] = 0 := by
  simp [paidAmong]

theorem paidAmong_congr {ids' : List Uuid} (h : ∀ id, id ∈ ids ↔ id ∈ ids') :
    s.paidAmong ids = s.paidAmong ids' := by
  simp only [paidAmong, h]

/-- **An order that was told of is not counted again**: the paid ones among all are the one that is
told of first, and those among the others that are paid after that. -/
theorem paidAmong_cons
    (h : t.orders.map Order.unstamped = s.orders.map fun o => (o.assembledBy [id]).unstamped) :
    s.paidAmong (id :: ids) = s.paidAmong [id] + t.paidAmong ids := by
  have hcount : t.paidAmong ids = s.orders.countP fun o =>
      (o.assembledBy [id]).id ∈ ids ∧ (o.assembledBy [id]).status = .paid := by
    have hmap := congrArg (List.countP fun o : Order => o.id ∈ ids ∧ o.status = .paid) h
    rw [List.countP_map, List.countP_map] at hmap
    exact hmap
  rw [hcount, paidAmong, paidAmong]
  clear h hcount
  induction s.orders with
  | nil => rfl
  | cons o os ih =>
    simp only [List.countP_cons, ih]
    by_cases hid : o.id = id <;> by_cases hs : o.status = .paid <;> by_cases hm : o.id ∈ ids <;>
      simp_all [Order.assembledBy] <;> omega

/-- What is named stays named. -/
theorem uses_of_unstamped
    (h : t.orders.map Order.unstamped = s.orders.map fun o => (o.assembledBy ids).unstamped)
    (id : Uuid) : t.uses id = s.uses id := by
  have hids : t.orders.map (·.id) = s.orders.map (·.id) := by
    simpa [Function.comp_def] using congrArg (List.map Order.id) h
  have hany : ∀ u : Store, u.uses id = (u.orders.map (·.id)).any (· == id) := by
    intro u
    simp [uses, Function.comp_def]
  rw [hany, hany, hids]

end Store

/-! ## What news does to a ledger -/

namespace Desk.Ledger

/-- **A ledger has been told** that some orders are assembled. -/
structure Told (ids : List Uuid) (l l' : Ledger) : Prop where
  orders : l'.store.orders.map Order.unstamped =
    l.store.orders.map fun o => (o.assembledBy ids).unstamped
  counters : l'.counters = l.counters.moreAssembled (l.store.paidAmong ids)
  outside : l'.outside = l.outside

variable {l l₁ l₂ : Ledger} {id : Uuid} {ids : List Uuid} {v : Order}

theorem Told.nil (l : Ledger) : Told [] l l where
  orders := by simp [Order.assembledBy]
  counters := by simp
  outside := rfl

/-- **One piece of news after another.** -/
theorem Told.trans (h : Told [id] l l₁) (h' : Told ids l₁ l₂) : Told (id :: ids) l l₂ where
  orders := by
    calc l₂.store.orders.map Order.unstamped
        = (l₁.store.orders.map Order.unstamped).map (Order.assembledBy ids) := by
          rw [h'.orders, List.map_map]
          exact List.map_congr_left fun o _ => (Order.assembledBy_unstamped ids o).symm
      _ = l.store.orders.map fun o => (o.assembledBy (id :: ids)).unstamped := by
          rw [h.orders, List.map_map]
          refine List.map_congr_left fun o _ => ?_
          simp [Order.assembledBy_unstamped, Order.assembledBy_cons]
  counters := by
    rw [h'.counters, h.counters, Counters.moreAssembled_add, ← Store.paidAmong_cons h.orders]
  outside := h'.outside.trans h.outside

/-- **What one piece of news does**: the desk succeeds, or says that the order cannot be assembled;
either way the ledger has been told. -/
theorem told_of_assemble (o : Outcomes) (now : Instant) (hv : l.store.find? id = some v) :
    ∃ result l', (assemble id now).run (Ledger.answer o now) l = (some result, l') ∧
      (result = .ok () ∨ ∃ status, result = .error (.invalidStatus id status)) ∧
      Told [id] l l' := by
  have hrun := run_assemble o ⟨.nil, now⟩ now l id
  simp only [hv] at hrun
  by_cases hp : v.status = .paid
  · rw [if_pos hp] at hrun
    refine ⟨_, _, hrun, .inl rfl, ?_, ?_, rfl⟩
    · exact Store.unstamped_revise_assembled hv (.inl hp) now
    · simp [Ledger.moved, Store.paidAmong_singleton hv, hp, Counters.add_moved_assembled]
  · have hzero : l.store.paidAmong [id] = 0 := by simp [Store.paidAmong_singleton hv, hp]
    rw [if_neg hp] at hrun
    by_cases ha : v.status = .assembled
    · rw [if_pos ha] at hrun
      refine ⟨_, _, hrun, .inl rfl, ?_, ?_, rfl⟩
      · exact Store.unstamped_revise_assembled hv (.inr ha) now
      · simp [hzero]
    · rw [if_neg ha] at hrun
      refine ⟨_, _, hrun, .inr ⟨v.status, rfl⟩, ?_, ?_, rfl⟩
      · exact Store.unstamped_of_not_paid hv hp
      · simp [hzero]

end Desk.Ledger

/-! ## A reader alone with a ledger -/

namespace Consumer

open Desk (Ledger Outcomes)

/-- **A batch of messages**: those that are still to be delivered, the ledger of the desk, and those
that were committed, oldest first. -/
structure Batch where
  pending : List Message
  ledger : Ledger
  committed : List Message

/-- **The answers to a reader over a batch.** Nobody else is at the desk. -/
def Batch.answer (o : Outcomes) (now : Instant) : (q : Question) → Batch → Option q.Answer × Batch
  | .receive, b =>
    match b.pending with
    | [] => (some (.ok none), b)
    | m :: pending => (some (.ok (some m)), { b with pending })
  | .commit m, b => (some (.ok ()), { b with committed := b.committed ++ [m] })
  | .desk call, b =>
    match b.ledger.answer o now call with
    | (answer, ledger) => (answer, { b with ledger })

/-- **The reader over a batch**, by a clock. -/
def read (o : Outcomes) (clock : List Instant) (b : Batch) : Option Outcome × Batch :=
  run (Batch.answer o) clock b

variable {o : Outcomes} {now : Instant}

/-- What a reader asks at the desk is answered by the ledger. -/
theorem run_atDesk_batch {R : Type} (p : Program Call Call.Answer R) (b : Batch) :
    (atDesk p).run (Batch.answer o now) b =
      ((p.run (Ledger.answer o now) b.ledger).1,
        { b with ledger := (p.run (Ledger.answer o now) b.ledger).2 }) :=
  run_atDesk (fun ledger => { b with ledger }) (fun _ _ => rfl) p b.ledger

variable (o)

/-- **One turn**: the news is brought to the desk, and its message committed. -/
theorem turn_news (now : Instant) {m : Message} {l : Ledger} {event : AssembledEvent} {v : Order}
    (decoded : m.decodeAssembled = .ok event) (stored : l.store.find? event.orderId = some v)
    (pending committed : List Message) :
    ∃ l', (turn now).run (Batch.answer o now) ⟨m :: pending, l, committed⟩ =
        (some .committed, ⟨pending, l', committed ++ [m]⟩) ∧
      Ledger.Told [event.orderId] l l' := by
  obtain ⟨result, l', hrun, hresult, told⟩ := Ledger.told_of_assemble o now stored
  have hsettled : handled event result = .ok () := by
    rw [handled_eq_ok_iff]
    exact hresult.imp_right fun ⟨status, h⟩ => ⟨_, status, h⟩
  refine ⟨l', ?_, told⟩
  simp only [turn, handle, Program.run, Batch.answer, decoded, Program.run_bind,
    run_atDesk_batch, hrun, hsettled, commit]

/-- **A reader handles a batch of news** to its end, and commits every message in its order. -/
theorem read_news {messages : List Message} {news : List AssembledEvent} {l : Ledger}
    (decoded : messages.map Message.decodeAssembled = news.map .ok)
    (stored : ∀ event ∈ news, l.store.uses event.orderId = true) {clock : List Instant}
    (enough : messages.length < clock.length) (committed : List Message) :
    ∃ l', read o clock ⟨messages, l, committed⟩ =
        (some (.ok ()), ⟨[], l', committed ++ messages⟩) ∧
      Ledger.Told (news.map (·.orderId)) l l' := by
  induction messages generalizing news l clock committed with
  | nil =>
    obtain rfl : news = [] := List.map_eq_nil_iff.mp decoded.symm
    cases clock with
    | nil => exact absurd enough (Nat.lt_irrefl 0)
    | cons now clock => exact ⟨l, by simp [read, run, turn, Program.run, Batch.answer], .nil l⟩
  | cons m messages ih =>
    cases clock with
    | nil => exact absurd enough (Nat.not_lt_zero _)
    | cons now clock =>
    cases news with
    | nil => simp at decoded
    | cons event news =>
    obtain ⟨hm, hrest⟩ := List.cons.inj decoded
    obtain ⟨v, hv⟩ : ∃ v, l.store.find? event.orderId = some v := by
      have huses := stored event List.mem_cons_self
      rwa [Store.uses_eq_isSome, Option.isSome_iff_exists] at huses
    obtain ⟨l₁, hturn, told₁⟩ := turn_news o now hm hv messages committed
    have hstored : ∀ event ∈ news, l₁.store.uses event.orderId = true := by
      intro event' he
      rw [Store.uses_of_unstamped told₁.orders]
      exact stored event' (List.mem_cons_of_mem _ he)
    obtain ⟨l₂, hread, told₂⟩ :=
      ih hrest hstored (Nat.lt_of_succ_lt_succ enough) (committed ++ [m])
    refine ⟨l₂, ?_, told₁.trans told₂⟩
    rw [read] at hread ⊢
    rw [run, hturn]
    simpa using hread

/-- **Redelivery and reordering of news are harmless.** Take two batches of messages that decode to
news about stored orders and name the same orders, however often, in whatever order and whatever
else they tell, and read each by any clock. A reader of either finishes, and has committed every
message once, in the order of delivery. Both leave the same orders behind, but for the times of their last changes: exactly the
named ones that were paid are now assembled. Both leave the same counters behind: each of those
orders is counted once. Nothing was asked of anybody outside. -/
theorem redelivery_harmless (o : Outcomes) (l : Ledger)
    {first second : List Message} {news news' : List AssembledEvent}
    (decoded : first.map Message.decodeAssembled = news.map .ok)
    (decoded' : second.map Message.decodeAssembled = news'.map .ok)
    (stored : ∀ event ∈ news, l.store.uses event.orderId = true)
    (sameOrders : ∀ id, id ∈ news.map (·.orderId) ↔ id ∈ news'.map (·.orderId))
    {clock clock' : List Instant} (enough : first.length < clock.length)
    (enough' : second.length < clock'.length) :
    ∃ after after' : Ledger,
      read o clock ⟨first, l, []⟩ = (some (.ok ()), ⟨[], after, first⟩) ∧
      read o clock' ⟨second, l, []⟩ = (some (.ok ()), ⟨[], after', second⟩) ∧
      after.store.orders.map Order.unstamped = after'.store.orders.map Order.unstamped ∧
      after.store.orders.map Order.unstamped = (l.store.orders.map fun v =>
        if v.id ∈ news.map (·.orderId) ∧ v.status = .paid then
          ({ v with status := .assembled } : Order).unstamped
        else v.unstamped) ∧
      after.counters = after'.counters ∧
      after.counters.moved .assembled = l.counters.moved .assembled +
        l.store.orders.countP (fun v => v.id ∈ news.map (·.orderId) ∧ v.status = .paid) ∧
      (∀ status, status ≠ .assembled → after.counters.moved status = l.counters.moved status) ∧
      after.counters.created = l.counters.created ∧ after.counters.revenue = l.counters.revenue ∧
      after.outside = l.outside ∧ after'.outside = l.outside := by
  have stored' : ∀ event ∈ news', l.store.uses event.orderId = true := by
    intro event he
    obtain ⟨event', he', hid⟩ :=
      List.mem_map.mp ((sameOrders event.orderId).mpr (List.mem_map_of_mem he))
    rw [← hid]
    exact stored event' he'
  obtain ⟨after, hread, told⟩ := read_news o decoded stored enough []
  obtain ⟨after', hread', told'⟩ := read_news o decoded' stored' enough' []
  refine ⟨after, after', hread, hread', ?_, ?_, ?_, ?_, ?_, ?_, ?_, told.outside, told'.outside⟩
  · rw [told.orders, told'.orders]
    exact List.map_congr_left fun v _ => by rw [Order.assembledBy_congr sameOrders]
  · rw [told.orders]
    refine List.map_congr_left fun v _ => ?_
    unfold Order.assembledBy
    split <;> rfl
  · rw [told.counters, told'.counters, Store.paidAmong_congr sameOrders]
  · rw [told.counters]
    rfl
  · intro status hs
    rw [told.counters]
    exact if_neg hs
  · rw [told.counters]
    rfl
  · rw [told.counters]
    rfl

/-- A ledger over an order that is paid. -/
def paidLedger : Ledger :=
  ⟨⟨[⟨.nil, "u-1", ["p-1"], 1, .paid, some "t-1", some .card, .epoch, .epoch⟩], by simp⟩, .zero, []⟩

/-- A clock for three messages, and one for a single message, later. -/
def early : List Instant := List.replicate 4 .epoch

def late : List Instant := [{ Instant.epoch with seconds := 7 }, { Instant.epoch with seconds := 8 }]

theorem redelivery_harmless_thrice :
    [news 0, news 1, news 2].map Message.decodeAssembled =
        [newsEvent, newsEvent, newsEvent].map .ok ∧
      paidLedger.store.uses newsEvent.orderId = true ∧
      ∃ after after' : Ledger,
        read ⟨.error .timeout, .error .timeout, .ok (), []⟩ early
            ⟨[news 0, news 1, news 2], paidLedger, []⟩ =
          (some (.ok ()), ⟨[], after, [news 0, news 1, news 2]⟩) ∧
        read ⟨.error .timeout, .error .timeout, .ok (), []⟩ late ⟨[news 3], paidLedger, []⟩ =
          (some (.ok ()), ⟨[], after', [news 3]⟩) ∧
        after.store.orders.map Order.unstamped = after'.store.orders.map Order.unstamped ∧
        after.counters.moved .assembled = 1 := by
  have hthree : [news 0, news 1, news 2].map Message.decodeAssembled =
      [newsEvent, newsEvent, newsEvent].map .ok := by
    simp [decode_news]
  have hone : [news 3].map Message.decodeAssembled = [newsEvent].map .ok := by simp [decode_news]
  have huses : paidLedger.store.uses newsEvent.orderId = true := by decide
  obtain ⟨after, after', hread, hread', horders, -, -, hcount, -⟩ :=
    redelivery_harmless ⟨.error .timeout, .error .timeout, .ok (), []⟩ paidLedger
      hthree hone (by simpa using huses) (by simp) (show 3 < early.length by decide)
      (show 1 < late.length by decide)
  refine ⟨hthree, huses, after, after', hread, hread', horders, ?_⟩
  rw [hcount]
  decide

end Consumer

end OrderDesk
