import OrderDesk.Proofs.Desk.History

/-!
# Payments are announced once, as they are stored

Several visits may charge for one order, but the write of only one of them lands on an order that
waits for its payment. Whoever announces a payment is that winner, and has written what it
announces; after that the payment of the order never changes.

## Main definitions

* `announces`: the exchanges that announce the payment of an order
* `Order.PaidAs`: an order is paid as an event tells
* `Announced`: announcements are made by winners, once
* `ToldPaid`: a visit was told that it paid

## Main results

* `Remembered.store_evolves`: one exchange lets the store evolve
* `announced_run`: in every traffic announcements are made by winners, once
* `announced_once`: the announcement of every payment
-/

namespace OrderDesk

/-- **An order is paid as an event tells.** -/
structure Order.PaidAs (o : Order) (event : PaidEvent) : Prop where
  status : o.status = .paid ∨ o.status = .assembled
  id : o.id = event.orderId
  user : o.user = event.user
  method : o.method = some event.method
  transaction : o.transaction = some event.transaction

theorem Order.PaidAs.ne_pending {o : Order} {event : PaidEvent} (h : o.PaidAs event) :
    o.status ≠ .pendingPayment := by
  rcases h.status with hs | hs <;> simp [hs]

/-- What an order is paid as never changes. -/
theorem Order.PaidAs.of_evolves {v w : Order} {event : PaidEvent} (h : v.PaidAs event)
    (e : v.Evolves w) : w.PaidAs event where
  status := by
    rcases h.status with hs | hs
    · exact Status.leadsTo_of_paid (hs ▸ e.status)
    · exact .inr (Status.leadsTo_assembled (hs ▸ e.status))
  id := e.identity.id.trans h.id
  user := e.identity.user.trans h.user
  method := (e.payment (.inr h.ne_pending)).method.trans h.method
  transaction := (e.payment (.inr h.ne_pending)).transaction.trans h.transaction

namespace Desk

/-- Whether an exchange announces the payment of an order, with whatever success. -/
def announces (id : Uuid) : Exchange Call Call.Answer → Bool
  | ⟨.publish event, _⟩ => event.orderId = id
  | _ => false

theorem announces_publish (id : Uuid) (event : PaidEvent) (answer : Except PublishError Unit) :
    announces id ⟨.publish event, answer⟩ = decide (event.orderId = id) := rfl

/-- **Announcements are made by winners, once.** What landed is still to be seen in the store; of
the visits that paid for an order only one landed, and only that one announces it. -/
structure Announced (a : Archive) (xs : List (Nat × Exchange Call Call.Answer)) : Prop where
  remembered : Remembered a xs
  landed : ∀ {who w expected}, (who, written w expected) ∈ xs →
    ∃ cur, a.store.find? w.id = some cur ∧ w.Evolves cur
  winner : ∀ {who other w w' expected expected'}, (who, written w expected) ∈ xs →
    (other, written w' expected') ∈ xs → w.status = .paid → w'.status = .paid → w.id = w'.id →
    who = other
  announced : ∀ {who event answer}, (who, ⟨.publish event, answer⟩) ∈ xs →
    ∃ w expected, (who, written w expected) ∈ xs ∧ w.status = .paid ∧ w.PaidAs event
  once : ∀ id, (xs.countP fun x => announces id x.2) ≤ 1

/-- Only an order that waits for its payment is written as paid. -/
theorem Writes.pending_of_paid {draw : Draw} {request : Request} {past : Past} {v w : Order}
    (h : Writes draw request past v w) (hw : w.status = .paid) : v.status = .pendingPayment := by
  cases h with
  | pay paid => exact (Order.markPaid_eq_ok_iff.mp paid).1
  | cancel cancelled =>
    obtain ⟨hs, -⟩ := Order.cancel_eq_ok_iff.mp cancelled
    exact hs
  | assemble assembled =>
    obtain ⟨-, rfl⟩ := Order.markAssembled_eq_ok_iff.mp assembled
    cases hw
  | reassert assembled =>
    rw [assembled] at hw
    cases hw

theorem Quiet.announces {x : Exchange Call Call.Answer} (h : Quiet x) (id : Uuid) :
    announces id x = false := by
  obtain ⟨call, answer⟩ := x
  cases call with
  | publish event => exact absurd rfl (h.not_publish event)
  | listParts _ => rfl
  | create _ => rfl
  | charge _ _ _ => rfl
  | load _ => rfl
  | update _ _ => rfl
  | count _ => rfl

/-- **One exchange lets the store evolve.** -/
theorem Remembered.store_evolves {a a' : Archive} {xs : List (Nat × Exchange Call Call.Answer)}
    {who : Nat} {x : Exchange Call Call.Answer} (h : Remembered a xs)
    (happens : Happens a (own who xs) x a') : a.store.Evolves a'.store := by
  cases happens with
  | quiet | looked | announced => exact .refl _
  | placed free fresh gains =>
    intro id o ho
    refine ⟨o, ?_, .refl o⟩
    rw [gains.find?, if_neg]
    · exact ho
    · rintro rfl
      rw [free] at ho
      cases ho
  | @revised _ _ v w cur now _ writes current same gains =>
    intro id o ho
    rw [gains.find?]
    split
    · rename_i hid
      obtain rfl : cur = o := by
        rw [← hid, Store.id_revised_of_find? current, current] at ho
        exact Option.some.inj ho
      exact ⟨_, rfl, (h.succeeds_revised writes current same now).evolves⟩
    · exact ⟨o, ho, .refl o⟩

namespace Announced

variable {a a' : Archive} {xs : List (Nat × Exchange Call Call.Answer)} {who : Nat}
  {x : Exchange Call Call.Answer}

/-- What landed is to be seen after one more exchange. -/
theorem landed_later (h : Announced a xs) (happens : Happens a (own who xs) x a') {other : Nat}
    {w : Order} {expected : Status} (hw : (other, written w expected) ∈ xs) :
    ∃ cur, a'.store.find? w.id = some cur ∧ w.Evolves cur := by
  obtain ⟨cur, hcur, hev⟩ := h.landed hw
  obtain ⟨cur', hcur', hev'⟩ := h.remembered.store_evolves happens w.id cur hcur
  exact ⟨cur', hcur', hev.trans hev'⟩

/-- What was announced stays announced by a winner. -/
theorem announced_snoc (h : Announced a xs) {other : Nat} {event : PaidEvent}
    {answer : Except PublishError Unit} (he : (other, ⟨.publish event, answer⟩) ∈ xs) :
    ∃ w expected, (other, written w expected) ∈ xs ++ [(who, x)] ∧ w.status = .paid ∧
      w.PaidAs event := by
  obtain ⟨w, expected, hw, hpaid⟩ := h.announced he
  exact ⟨w, expected, List.mem_append_left _ hw, hpaid⟩

/-- An exchange that is no write and no announcement. -/
theorem of_silent (h : Announced a xs) (happens : Happens a (own who xs) x a')
    (hwrite : ∀ w expected, x ≠ written w expected)
    (hpublish : ∀ event, x.question ≠ .publish event)
    (hannounces : ∀ id, announces id x = false) : Announced a' (xs ++ [(who, x)]) where
  remembered := h.remembered.exchange happens
  landed hw := h.landed_later happens (mem_of_mem_snoc hw (hwrite _ _))
  winner hw hw' := h.winner (mem_of_mem_snoc hw (hwrite _ _)) (mem_of_mem_snoc hw' (hwrite _ _))
  announced he :=
    h.announced_snoc (mem_of_mem_snoc he fun hx => hpublish _ (congrArg Exchange.question hx))
  once id := by
    rw [List.countP_append]
    simpa [hannounces] using h.once id

/-- An order that waits for its payment was not written as paid. -/
theorem not_landed_of_pending (h : Announced a xs) {other : Nat} {w cur : Order} {expected : Status}
    (hw : (other, written w expected) ∈ xs) (hpaid : w.status = .paid)
    (current : a.store.find? w.id = some cur) : cur.status ≠ .pendingPayment := by
  intro hs
  obtain ⟨cur', hcur', hev⟩ := h.landed hw
  obtain rfl := Option.some.inj (current.symm.trans hcur')
  have hpending := (hs ▸ hev.status).eq_pending
  rw [hpaid] at hpending
  cases hpending

/-- A write that lands. If it pays for an order, no other one has. -/
theorem of_landed (h : Announced a xs) {draw : Draw} {request : Request} {v w cur : Order}
    {now : Instant} (writes : Writes draw request (own who xs) v w)
    (current : a.store.find? v.id = some cur) (same : cur.status = v.status)
    (gains : a.Gains a' (Store.revised cur w.status w.transaction w.method now)) :
    Announced a' (xs ++ [(who, written w v.status)]) := by
  have happens : Happens a (own who xs) (written w v.status) a' :=
    .revised writes current same gains
  have hid : w.id = v.id := writes.succeeds.identity.id
  have hfirst {other : Nat} {w' : Order} {expected : Status}
      (hw : (other, written w' expected) ∈ xs) (hpaid : w.status = .paid)
      (hpaid' : w'.status = .paid) : w'.id ≠ w.id := by
    intro he
    have hcurrent : a.store.find? w'.id = some cur := by
      rw [he, hid]
      exact current
    exact h.not_landed_of_pending hw hpaid' hcurrent (same.trans (writes.pending_of_paid hpaid))
  refine ⟨h.remembered.exchange happens, ?_, ?_, ?_, ?_⟩
  · intro other w' expected hw
    rcases List.mem_append.mp hw with hw | hw
    · exact h.landed_later happens hw
    · obtain ⟨rfl, -⟩ := written_inj (congrArg Prod.snd (List.mem_singleton.mp hw))
      refine ⟨_, ?_, (h.remembered.sameIdentity_written writes current).evolves_revised now⟩
      rw [gains.find?, if_pos]
      rw [hid]
      exact Store.id_revised_of_find? current _ _ _ _
  · intro one other w₁ w₂ expected₁ expected₂ h₁ h₂ hp₁ hp₂ he
    rcases List.mem_append.mp h₁ with old₁ | new₁ <;> rcases List.mem_append.mp h₂ with old₂ | new₂
    · exact h.winner old₁ old₂ hp₁ hp₂ he
    · obtain ⟨rfl, -⟩ := written_inj (congrArg Prod.snd (List.mem_singleton.mp new₂))
      exact absurd he (hfirst old₁ hp₂ hp₁)
    · obtain ⟨rfl, -⟩ := written_inj (congrArg Prod.snd (List.mem_singleton.mp new₁))
      exact absurd he.symm (hfirst old₂ hp₁ hp₂)
    · have hone := congrArg Prod.fst (List.mem_singleton.mp new₁)
      have hother := congrArg Prod.fst (List.mem_singleton.mp new₂)
      exact hone.trans hother.symm
  · intro other event answer he
    exact h.announced_snoc (mem_of_mem_snoc he (ne_of_question (by simp)))
  · intro id
    rw [List.countP_append]
    simpa [announces, written] using h.once id

/-- **An announcement** is made by the winner, who has made none before. -/
theorem of_announced (h : Announced a xs) {draw : Draw} {id : Uuid} {method : Method}
    {transaction : String} {v w : Order} {answer : Except PublishError Unit}
    (paid : v.markPaid transaction method draw.now = .ok w)
    (after : own who xs = [loaded id v, charged v.id v.user method transaction, written w v.status,
      counted (.moved w.status)]) :
    Announced a
      (xs ++ [(who, ⟨.publish ⟨draw.id, w.id, w.user, method, transaction⟩, answer⟩)]) := by
  have hw : (who, written w v.status) ∈ xs := by
    refine mem_own.mp ?_
    rw [after]
    simp
  obtain ⟨-, hstatus, ht, hm⟩ : v.status = .pendingPayment ∧ w.status = .paid ∧
      w.transaction = some transaction ∧ w.method = some method := by
    obtain ⟨hs, rfl⟩ := Order.markPaid_eq_ok_iff.mp paid
    exact ⟨hs, rfl, rfl, rfl⟩
  have hfirst : (xs.countP fun x => announces w.id x.2) = 0 := by
    rw [List.countP_eq_zero]
    rintro ⟨other, ⟨call, answer'⟩⟩ hx hcall
    cases call with
    | publish event =>
      obtain ⟨w', expected, hw', hpaid', has⟩ := h.announced hx
      have hevent : event.orderId = w.id := by simpa [announces] using hcall
      obtain rfl := h.winner hw hw' hstatus hpaid' (hevent ▸ has.id.symm)
      have hnone : ∀ x ∈ own who xs, x.question ≠ .publish event := by
        rw [after]
        simp [loaded, charged, written, counted]
      exact hnone _ (mem_own.mpr hx) rfl
    | _ => simp [announces] at hcall
  refine ⟨h.remembered.exchange (.announced paid after), ?_, ?_, ?_, ?_⟩
  · intro other w' expected hw'
    exact h.landed (mem_of_mem_snoc hw' (ne_of_question (by simp)))
  · intro one other w₁ w₂ expected₁ expected₂ h₁ h₂
    exact h.winner (mem_of_mem_snoc h₁ (ne_of_question (by simp)))
      (mem_of_mem_snoc h₂ (ne_of_question (by simp)))
  · intro other event answer' he
    rcases List.mem_append.mp he with he | he
    · exact h.announced_snoc he
    · obtain ⟨rfl, hx⟩ := Prod.mk.inj (List.mem_singleton.mp he)
      obtain rfl := Call.publish.inj (congrArg Exchange.question hx)
      exact ⟨w, v.status, List.mem_append_left _ hw, hstatus, .inl hstatus, rfl, rfl, hm, ht⟩
  · intro id
    rw [List.countP_append]
    by_cases hid : w.id = id
    · subst hid
      simp [hfirst, announces_publish]
    · simpa [announces_publish, hid] using h.once id

/-- **One exchange.** -/
theorem exchange (h : Announced a xs) (happens : Happens a (own who xs) x a') :
    Announced a' (xs ++ [(who, x)]) := by
  cases happens with
  | quiet quiet =>
    exact h.of_silent (.quiet quiet) quiet.not_written quiet.not_publish quiet.announces
  | looked known =>
    exact h.of_silent (.looked known) (fun _ _ => ne_of_question (by simp)) (fun _ => by simp)
      fun _ => rfl
  | placed free fresh gains =>
    exact h.of_silent (.placed free fresh gains) (fun _ _ => ne_of_question (by simp))
      (fun _ => by simp) fun _ => rfl
  | revised writes current same gains => exact h.of_landed writes current same gains
  | announced paid after => exact h.of_announced paid after

end Announced

/-- **In every traffic** announcements are made by winners, once. -/
theorem announced_run (s : Store) (moves : List (Move Visit Circumstance)) :
    Announced (trafficAt s moves).state (trafficAt s moves).exchanges :=
  archive_invariant (fun happens h => h.exchange happens)
    ⟨remembered_opened s, by simp, by simp, by simp, fun _ => Nat.zero_le _⟩ moves

/-- **A visit was told that it paid** for an order, with a transaction. -/
def ToldPaid (t : Traffic Visit Call Call.Answer Reply Archive) (who : Nat) (id : Uuid)
    (transaction : String) : Prop :=
  ∃ v method, v.request = .pay id method ∧
    t.visits[who]? = some (v, .returned (.transaction (.ok transaction)))

/-- A visit that was told that it paid has announced what it wrote. -/
theorem announced_of_toldPaid {s : Store} {moves : List (Move Visit Circumstance)} {who : Nat}
    {id : Uuid} {transaction : String} (told : ToldPaid (trafficAt s moves) who id transaction) :
    ∃ w expected, (who, written w expected) ∈ (trafficAt s moves).exchanges ∧
      w.status = .paid ∧ w.id = id ∧
      ∃ event, (who, published event) ∈ (trafficAt s moves).exchanges ∧ event.orderId = id ∧
        event.transaction = transaction := by
  obtain ⟨v, method, request, returned⟩ := told
  obtain ⟨id', method', o, w, hrequest, hpaid, hown⟩ :=
    (lawful_trafficAt s moves).within returned transaction rfl
  obtain ⟨rfl, rfl⟩ := Request.pay.inj (request.symm.trans hrequest)
  have hmem {x : Exchange Call Call.Answer} (hx : x ∈ own who (trafficAt s moves).exchanges) :
      (who, x) ∈ (trafficAt s moves).exchanges :=
    mem_own.mp hx
  rw [hown] at hmem
  have hloaded : (who, loaded id o) ∈ (trafficAt s moves).exchanges := hmem (by simp)
  have hwritten : (who, written w o.status) ∈ (trafficAt s moves).exchanges := hmem (by simp)
  have hpublished : (who, published ⟨v.draw.id, w.id, w.user, method, transaction⟩) ∈
      (trafficAt s moves).exchanges := hmem (by simp)
  have hid : o.id = id := (Archive.mem_history.mp ((remembered s moves).loaded hloaded)).2
  obtain ⟨-, rfl⟩ := Order.markPaid_eq_ok_iff.mp hpaid
  exact ⟨_, o.status, hwritten, rfl, hid, _, hpublished, hid, rfl⟩

/-- **The announcement of every payment**, in every traffic, whatever the store was at its
beginning. For each order at most one announcement is ever tried; from that moment on the order is
stored as paid or assembled, just as the event tells; at most one visit that pays for an order is
told that it did, and then the event was announced and the transaction it was told is the stored
one. -/
theorem announced_once (s : Store) (moves more : List (Move Visit Circumstance)) :
    (∀ id, ((trafficAt s moves).exchanges.countP fun x => announces id x.2) ≤ 1) ∧
      (∀ who event answer, (who, ⟨.publish event, answer⟩) ∈ (trafficAt s moves).exchanges →
        ∃ o, (trafficAt s (moves ++ more)).state.store.find? event.orderId = some o ∧
          o.PaidAs event) ∧
      (∀ id who other transaction transaction',
        ToldPaid (trafficAt s moves) who id transaction →
        ToldPaid (trafficAt s moves) other id transaction' → who = other) ∧
      ∀ id who transaction, ToldPaid (trafficAt s moves) who id transaction →
        (∃ event, (who, published event) ∈ (trafficAt s moves).exchanges ∧ event.orderId = id ∧
          event.transaction = transaction) ∧
        ∃ o, (trafficAt s (moves ++ more)).state.store.find? id = some o ∧
          o.transaction = some transaction := by
  have h := announced_run s moves
  have hstored {who : Nat} {event : PaidEvent} {answer : Except PublishError Unit}
      (he : (who, ⟨.publish event, answer⟩) ∈ (trafficAt s moves).exchanges) :
      ∃ o, (trafficAt s (moves ++ more)).state.store.find? event.orderId = some o ∧
        o.PaidAs event := by
    -- from what the winner wrote to what was stored when it was announced, and on from there
    obtain ⟨w, expected, hw, -, has⟩ := h.announced he
    obtain ⟨cur, hcur, hev⟩ := h.landed hw
    obtain ⟨o, ho, hev'⟩ := evolves_later s moves more (h.remembered.sound.mem_of_find? hcur)
    rw [has.id] at ho
    exact ⟨o, ho, has.of_evolves (hev.trans hev')⟩
  refine ⟨h.once, fun who event answer he => hstored he, ?_, ?_⟩
  · intro id who other transaction transaction' told told'
    obtain ⟨w, expected, hw, hpaid, hid, -⟩ := announced_of_toldPaid told
    obtain ⟨w', expected', hw', hpaid', hid', -⟩ := announced_of_toldPaid told'
    exact h.winner hw hw' hpaid hpaid' (hid.trans hid'.symm)
  · intro id who transaction told
    obtain ⟨-, -, -, -, -, event, he, horder, htransaction⟩ := announced_of_toldPaid told
    obtain ⟨o, ho, has⟩ := hstored he
    refine ⟨⟨event, he, horder, htransaction⟩, o, ?_, ?_⟩
    · rw [← horder]
      exact ho
    · rw [← htransaction]
      exact has.transaction

set_option maxRecDepth 4000 in
theorem announced_once_sold :
    ToldPaid (trafficAt .empty sold) 1 .nil "t-1" ∧
      (∃ event, (1, published event) ∈ (trafficAt .empty sold).exchanges ∧
        event.orderId = .nil ∧ event.transaction = "t-1") ∧
      ∃ o, (trafficAt .empty (sold ++ built)).state.store.find? .nil = some o ∧
        o.transaction = some "t-1" := by
  have told : ToldPaid (trafficAt .empty sold) 1 .nil "t-1" := ⟨payer, .card, rfl, rfl⟩
  obtain ⟨-, -, -, kept⟩ := announced_once .empty sold built
  exact ⟨told, kept .nil 1 "t-1" told⟩

end Desk

end OrderDesk
