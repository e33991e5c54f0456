import OrderDesk.Proofs.Desk.Request

/-!
# The desk reads as one request after another

Every operation takes effect at one call of the store. A refusal and a declined charge take effect
when the order is loaded, everything else when the store is asked to write: a write that lands
carries the payment that the order still has, and one that does not meets a status with which the
operation alone is refused as well, or finds the order assembled already.

## Main definitions

* `Reply.Alike`: replies that differ only in the times of orders
* `reading`: the desk, read as one request after another

## Main results

* `waiting_program`: every visit waits for its moment
* `desk_linearizable`: complete traffic at a store reads as one visit after another
-/

namespace OrderDesk.Desk

/-- A reply without the times of its order. -/
def Reply.untimed : Reply → Reply
  | .order (.ok o) => .order (.ok o.untimed)
  | r => r

/-- **Replies that differ only in the times of orders.** -/
def Reply.Alike (a b : Reply) : Prop := a.untimed = b.untimed

theorem Reply.Alike.refl (r : Reply) : r.Alike r := rfl

theorem Reply.alike_order {a b : Order} (h : a.Alike b) :
    Reply.Alike (.order (.ok a)) (.order (.ok b)) :=
  congrArg (fun o => Reply.order (.ok o)) h.untimed_eq

/-- **The desk, read as one request after another**, up to the time. -/
def reading : Reading Visit Instant Reply Store where
  alone := Visit.alone
  evolves := Store.Evolves
  alike := Store.Alike
  agree := Reply.Alike
  evolves_refl := Store.Evolves.refl
  evolves_trans := Store.Evolves.trans
  alike_refl := Store.Alike.refl

/-- The visit waits for its moment. -/
abbrev Visit.Waits (v : Visit) : Program Call Call.Answer Reply → Store → Prop :=
  reading.Waiting v.outcomes.answer v

/-- The visit will be told `r`, and changes nothing more. -/
abbrev Visit.Settles (v : Visit) (r : Reply) : Program Call Call.Answer Reply → Prop :=
  reading.Settled v.outcomes.answer r

/-- The moment of a visit, which leaves the rest `p` of its program. -/
abbrev Visit.Moment (v : Visit) (s s' : Store) (p : Program Call Call.Answer Reply) : Prop :=
  reading.TakesEffect v s s' fun r => v.Settles r p

variable {v : Visit} {s : Store} {r : Reply}

section Calls

variable {call : Call} {a : call.Answer} {next : call.Answer → Program Call Call.Answer Reply}

/-- Waiting goes on over a call that is answered without the store. -/
theorem waits_ask (h : ∀ now s, v.outcomes.answer now call s = (some a, s))
    (hw : v.Waits (next a) s) : v.Waits (.ask call next) s := by
  intro s' e now a' s'' answered
  rw [h] at answered
  obtain ⟨rfl, rfl⟩ := answered_inj answered
  exact ⟨.refl _, .inr ⟨rfl, hw.evolve e⟩⟩

/-- What is settled stays so over a call that is answered without the store. -/
theorem settles_ask (h : ∀ now s, v.outcomes.answer now call s = (some a, s))
    (hs : v.Settles r (next a)) : v.Settles r (.ask call next) := by
  intro now s a' s' answered
  rw [h] at answered
  obtain ⟨rfl, rfl⟩ := answered_inj answered
  exact ⟨rfl, hs⟩

end Calls

/-- What is refused without a call could as well be refused at any moment. -/
theorem waits_done (h : ∀ now t, v.alone now t = (some r, t)) : v.Waits (.done r) s :=
  fun _ _ now t alike => ⟨r, t, h now t, alike, .refl r⟩

/-- A moment at which the order was not there. -/
theorem moment_missing {id : Uuid} (h : s.find? id = none)
    (told : ∀ now t, t.find? id = none → v.alone now t = (some r, t)) : v.Moment s s (.done r) :=
  fun now t alike => ⟨r, t, told now t (alike.find?_eq_none h), alike, .refl r⟩

/-- A moment at which the order was there, in the version `cur`. -/
theorem moment_found {id : Uuid} {cur : Order} {s' : Store} {p : Program Call Call.Answer Reply}
    (h : s.find? id = some cur) (settles : v.Settles r p)
    (told : ∀ now t o, s.Alike t → t.find? id = some o → cur.Alike o →
      ∃ t', v.alone now t = (some r, t') ∧ s'.Alike t') : v.Moment s s' p := by
  intro now t alike
  obtain ⟨o, ho, ha⟩ := Store.Alike.find?_eq_some alike h
  obtain ⟨t', halone, halike⟩ := told now t o alike ho ha
  exact ⟨r, t', halone, halike, settles⟩

/-- A moment at which the order was there, in a status that rules the request out. -/
theorem moment_refused {id : Uuid} {cur : Order} (h : s.find? id = some cur)
    (told : ∀ now t o, t.find? id = some o → o.status = cur.status → v.alone now t = (some r, t)) :
    v.Moment s s (.done r) :=
  moment_found h (.refl r) fun now t o alike ho ha =>
    ⟨t, told now t o ho ha.status_eq.symm, alike⟩

/-- **A look at an order** is the moment if the order is not there; otherwise it is the moment, or
waiting goes on. -/
theorem waits_load {id : Uuid} {next : Except StoreError Order → Program Call Call.Answer Reply}
    (missing : ∀ s', s'.find? id = none → v.Moment s' s' (next (.error (.notFound id))))
    (found : ∀ s' o, s'.find? id = some o →
      v.Moment s' s' (next (.ok o)) ∨ v.Waits (next (.ok o)) s') :
    v.Waits (.ask (.load id) next) s := by
  intro s' e now a s'' answered
  obtain ⟨rfl, rfl⟩ := answered_inj answered
  refine ⟨.refl _, ?_⟩
  cases h : s'.find? id with
  | none =>
    rw [Store.load_of_find?_none h]
    exact .inl (missing s' h)
  | some o =>
    rw [Store.load_of_find? h]
    exact (found s' o h).imp_right fun hw => ⟨rfl, hw⟩

/-- **A write** is the moment: whether it lands on the status of the copy, or meets another one. -/
theorem waits_update {o w : Order} {expected : Status}
    {next : Except StoreError Unit → Program Call Call.Answer Reply}
    (ho : s.find? o.id = some o) (he : o.status = expected) (hw : o.Succeeds w)
    (lands : ∀ s' cur now, s'.find? o.id = some cur → o.Evolves cur → cur.status = expected →
      v.Moment s' (s'.revise o.id w.status w.transaction w.method now) (next (.ok ())))
    (meets : ∀ s' cur, s'.find? o.id = some cur → o.Evolves cur → cur.status ≠ expected →
      v.Moment s' s' (next (.error (.conflict o.id expected cur.status)))) :
    v.Waits (.ask (.update w expected) next) s := by
  subst he
  intro s' e now a s'' answered
  have hid : w.id = o.id := hw.identity.id
  obtain ⟨cur, hcur, hev⟩ := e o.id o ho
  by_cases hs : cur.status = o.status
  · have hu : s'.update w o.status now =
        .ok (s'.revise w.id w.status w.transaction w.method now) :=
      Store.update_of_find? (hid ▸ hcur) hs
    simp only [Outcomes.answer, hu] at answered
    obtain ⟨rfl, rfl⟩ := answered_inj answered
    refine ⟨Store.evolves_of_update hcur hev hw hu, .inl ?_⟩
    rw [hid]
    exact lands s' cur now hcur hev hs
  · have hu : s'.update w o.status now = .error (.conflict w.id o.status cur.status) :=
      Store.update_of_ne (hid ▸ hcur) hs
    simp only [Outcomes.answer, hu] at answered
    obtain ⟨rfl, rfl⟩ := answered_inj answered
    refine ⟨.refl _, .inl ?_⟩
    rw [hid]
    exact meets s' cur hcur hev hs

/-- **A creation** is the moment. -/
theorem waits_create {o : Order} {next : Except StoreError Order → Program Call Call.Answer Reply}
    (created : ∀ s' c t', s'.create o v.outcomes.draws = some (c, t') →
      v.Moment s' t' (next (.ok c))) :
    v.Waits (.ask (.create o) next) s := by
  intro s' e now a s'' answered
  cases hc : s'.create o v.outcomes.draws with
  | none =>
    simp only [Outcomes.answer, hc] at answered
    cases (Prod.mk.inj answered).1
  | some made =>
    obtain ⟨c, t'⟩ := made
    simp only [Outcomes.answer, hc] at answered
    obtain ⟨rfl, rfl⟩ := answered_inj answered
    exact ⟨Store.evolves_of_create hc, .inl (created s' c t' hc)⟩

/-! ## The moment of each request -/

section Requests

variable (draw : Draw) (outcomes : Outcomes) (s : Store)

theorem waits_get (id : Uuid) :
    Visit.Waits ⟨.get id, draw, outcomes⟩ ((Request.get id).program draw) s := by
  refine waits_load ?_ ?_
  · intro s' h
    refine moment_missing h fun now t ht => ?_
    rw [alone_get, ht]
    rfl
  · intro s' o h
    refine .inl fun now t alike => ?_
    obtain ⟨o', ho', ha⟩ := Store.Alike.find?_eq_some alike h
    have halone : Visit.alone ⟨.get id, draw, outcomes⟩ now t = (some (.order (.ok o')), t) := by
      rw [alone_get, ho']
    exact ⟨_, t, halone, alike, Reply.alike_order ha.symm⟩

theorem waits_cancel (id : Uuid) :
    Visit.Waits ⟨.cancel id, draw, outcomes⟩ ((Request.cancel id).program draw) s := by
  refine waits_load ?_ ?_
  · intro s' h
    refine moment_missing h fun now t ht => ?_
    rw [alone_cancel, ht]
    rfl
  · intro s' o h
    obtain rfl := Store.id_of_find? h
    by_cases hs : o.status = .pendingPayment
    · have hc : o.cancel draw.now = .ok { o with status := .cancelled, updatedAt := draw.now } :=
        Order.cancel_eq_ok_iff.mpr ⟨hs, rfl⟩
      right
      simp only [hc]
      refine waits_update h rfl (Order.succeeds_of_cancel hc) ?_ ?_
      · intro s' cur now hcur hev hsame
        refine moment_found hcur (settles_ask (fun _ _ => rfl) (.refl _)) ?_
        intro now' t o' alike ho' ha
        have hpay := (hev.payment (.inl hsame.symm)).of_alike ha
        rw [alone_cancel, ho']
        simp only [← ha.status_eq, hsame, hs, if_true, hpay.transaction, hpay.method]
        exact ⟨_, rfl, alike.revise ..⟩
      · intro s' cur hcur _ hne
        refine moment_refused hcur fun now t o' ho' hs' => ?_
        rw [alone_cancel, ho']
        simp only [hs', hs ▸ hne, if_false]
        rfl
    · -- the moment is the look
      left
      simp only [Order.cancel_of_ne hs]
      refine moment_refused h fun now t o' ho' hs' => ?_
      rw [alone_cancel, ho']
      simp only [hs', hs, if_false]
      rfl

theorem waits_assemble (id : Uuid) :
    Visit.Waits ⟨.assemble id, draw, outcomes⟩ ((Request.assemble id).program draw) s := by
  refine waits_load ?_ ?_
  · intro s' h
    refine moment_missing h fun now t ht => ?_
    rw [alone_assemble, ht]
    rfl
  · intro s' o h
    obtain rfl := Store.id_of_find? h
    by_cases hassembled : o.status = .assembled
    · -- the status is stored once more
      right
      simp only [hassembled, if_true]
      refine waits_update h hassembled (.refl o) ?_ ?_
      · intro s' cur now hcur hev hsame
        refine moment_found hcur (.refl _) ?_
        intro now' t o' alike ho' ha
        have hpay := (hev.payment (.inl (hassembled.trans hsame.symm))).of_alike ha
        rw [alone_assemble, ho']
        simp only [← ha.status_eq, hsame, hassembled, or_true, if_true, hpay.transaction,
          hpay.method]
        exact ⟨_, rfl, alike.revise ..⟩
      · -- an assembled order stays so
        intro s' cur _ hev hne
        exact absurd (Status.leadsTo_assembled (hassembled ▸ hev.status)) hne
    · by_cases hs : o.status = .paid
      · have hm : o.markAssembled draw.now =
            .ok { o with status := .assembled, updatedAt := draw.now } :=
          Order.markAssembled_eq_ok_iff.mpr ⟨hs, rfl⟩
        right
        simp only [hassembled, if_false, hm]
        refine waits_update h rfl (Order.succeeds_of_markAssembled hm) ?_ ?_
        · intro s' cur now hcur hev hsame
          refine moment_found hcur (settles_ask (fun _ _ => rfl) (.refl _)) ?_
          intro now' t o' alike ho' ha
          have hpay := (hev.payment (.inl hsame.symm)).of_alike ha
          rw [alone_assemble, ho']
          simp only [← ha.status_eq, hsame, hs, true_or, if_true, hpay.transaction, hpay.method]
          exact ⟨_, rfl, alike.revise ..⟩
        · -- another visit assembled the order, which alone would assemble it once more
          intro s' cur hcur hev hne
          have hcs : cur.status = .assembled :=
            (Status.leadsTo_of_paid (hs ▸ hev.status)).resolve_left (hs ▸ hne)
          rw [hcs]
          refine moment_found hcur (.refl _) ?_
          intro now t o' alike ho' ha
          have hos : o'.status = .assembled := ha.status_eq.symm.trans hcs
          rw [alone_assemble, ho']
          simp only [hos, or_true, if_true]
          exact ⟨_, rfl, alike.trans (hos ▸ Store.alike_revise_self ho' now)⟩
      · left
        simp only [hassembled, if_false, Order.markAssembled_of_ne hs]
        refine moment_refused h fun now t o' ho' hs' => ?_
        rw [alone_assemble, ho']
        simp only [hs', hs, hassembled, or_self, if_false]
        rfl

/-- What remains of a payment after its write landed: it is counted, and announced. -/
theorem settles_announce (id : Uuid) (m : Method) (paid : Order) (method : Method)
    (transaction : String) :
    Visit.Settles ⟨.pay id m, draw, outcomes⟩
      (.transaction (announced outcomes.publish transaction))
      ((Program.ask (.count (.moved .paid)) fun _ =>
        announce paid method transaction draw).map .transaction) := by
  refine settles_ask (fun _ _ => rfl) (settles_ask (fun _ _ => rfl) ?_)
  cases h : outcomes.publish with
  | error e => exact .refl _
  | ok _ => exact .refl _

theorem waits_pay (id : Uuid) (method : Method) :
    Visit.Waits ⟨.pay id method, draw, outcomes⟩ ((Request.pay id method).program draw) s := by
  refine waits_load ?_ ?_
  · intro s' h
    refine moment_missing h fun now t ht => ?_
    rw [alone_pay, ht]
    rfl
  · intro s' o h
    obtain rfl := Store.id_of_find? h
    by_cases hs : o.status = .pendingPayment
    · have he : o.ensureCanBecome .paid = .ok () :=
        Order.ensureCanBecome_eq_ok_iff.mpr (Status.canBecome_paid_iff.mpr hs)
      simp only [he]
      cases hcharge : outcomes.charge with
      | error e =>
        left
        refine moment_found h (r := .transaction (.error .paymentFailed)) ?_ ?_
        · refine settles_ask (fun _ _ => rfl) ?_
          simp only [hcharge]
          exact .refl _
        · intro now t o' alike ho' ha
          rw [alone_pay, ho']
          simp only [← ha.status_eq, hs, if_true, hcharge]
          exact ⟨t, rfl, alike⟩
      | ok transaction =>
        have hm : o.markPaid transaction method draw.now = .ok { o with
            status := .paid, transaction := some transaction, method := some method,
            updatedAt := draw.now } := Order.markPaid_eq_ok_iff.mpr ⟨hs, rfl⟩
        refine .inr (waits_ask (fun _ _ => rfl) ?_)
        simp only [hcharge, settle, hm]
        refine waits_update h rfl (Order.succeeds_of_markPaid hm) ?_ ?_
        · intro s' cur now hcur _ hsame
          refine moment_found hcur (settles_announce draw outcomes _ _ _ _ _) ?_
          intro now' t o' alike ho' ha
          rw [alone_pay, ho']
          simp only [← ha.status_eq, hsame, hs, if_true, hcharge]
          exact ⟨_, rfl, alike.revise ..⟩
        · intro s' cur hcur _ hne
          refine moment_refused hcur fun now t o' ho' hs' => ?_
          rw [alone_pay, ho']
          simp only [hs', hs ▸ hne, if_false]
          rfl
    · have he : o.ensureCanBecome .paid = .error ⟨o.status, .paid⟩ := by
        simp [Order.ensureCanBecome, mt Status.canBecome_paid_iff.mp hs]
      left
      simp only [he]
      refine moment_refused h fun now t o' ho' hs' => ?_
      rw [alone_pay, ho']
      simp only [hs', hs, if_false]
      rfl

theorem waits_place (user : String) (ids : List String) :
    Visit.Waits ⟨.place user ids, draw, outcomes⟩ ((Request.place user ids).program draw) s := by
  simp only [Request.program, Desk.place]
  cases hids : ids.isEmpty with
  | true =>
    refine waits_done fun now t => ?_
    simp only [alone_place, quoted, hids, if_true]
  | false =>
    refine waits_ask (fun _ _ => rfl) ?_
    cases hparts : outcomes.parts with
    | error e =>
      refine waits_done fun now t => ?_
      simp only [alone_place, quoted, hids, hparts]
      rfl
    | ok parts =>
      cases hprice : price ids.length parts with
      | error e =>
        simp only [hprice]
        refine waits_done fun now t => ?_
        simp only [alone_place, quoted, hids, hparts, hprice]
        rfl
      | ok total =>
        simp only [hprice]
        refine waits_create fun s' c t' hc now t alike => ?_
        have hplaced := Order.alike_placed draw.id draw.now now user ids total
        obtain ⟨c', u', hc', hcc, halike⟩ := Store.Alike.create_eq_some alike hplaced hc
        have halone : Visit.alone ⟨.place user ids, draw, outcomes⟩ now t =
            (some (.order (.ok c')), u') := by
          simp only [alone_place, quoted, hids, hparts, hprice]
          rw [if_neg (by simp)]
          simp only [hc']
        exact ⟨_, u', halone, halike,
          settles_ask (fun _ _ => rfl) (settles_ask (fun _ _ => rfl) (Reply.alike_order hcc.symm))⟩

end Requests

/-- **Every visit waits for its moment.** -/
theorem waiting_program (v : Visit) (s : Store) :
    reading.Waiting (atStore.answer v) v (atStore.program v) s := by
  obtain ⟨request, draw, outcomes⟩ := v
  cases request with
  | place user ids => exact waits_place draw outcomes s user ids
  | get id => exact waits_get draw outcomes s id
  | pay id method => exact waits_pay draw outcomes s id method
  | cancel id => exact waits_cancel draw outcomes s id
  | assemble id => exact waits_assemble draw outcomes s id

/-- **The desk is linearizable.** However the visits to a store interleave, once all have returned
there is an order of them that keeps to real time in which, one after another and by any clock, they
would have been told the same and have left the same store, up to the times of orders. -/
theorem desk_linearizable (s₀ : Store) (moves : List (Move Visit Instant))
    (complete : ((Traffic.opened s₀).run atStore moves).Complete) :
    ∃ order : List (Visit × Nat),
      order.Perm ((Traffic.opened s₀).run atStore moves).numbered ∧
      (order.Pairwise fun a b =>
        ¬ Traffic.Precedes ((Traffic.opened s₀).run atStore moves).log b.2 a.2) ∧
      ∀ clock : Nat → Instant,
        ((Traffic.opened s₀).run atStore moves).state.Alike
          (reading.oneByOne clock order s₀).2 ∧
        ∀ {who : Nat} {v : Visit} {r : Reply},
          ((Traffic.opened s₀).run atStore moves).visits[who]? = some (v, .returned r) →
          ∃ r', (who, some r') ∈ (reading.oneByOne clock order s₀).1 ∧ r'.Alike r :=
  reading.linearizable atStore waiting_program s₀ moves complete

/-- A store with one order, which waits for its payment. -/
def oneOrder : Store := ⟨[Order.placed .nil .epoch "u-1" ["p-1"] 1], List.nodup_singleton _⟩

/-- Both look at the order; it is cancelled before the charge comes through. -/
def overtaken : List (Move Visit Instant) :=
  [.arrive payer, .arrive canceller, .proceed 0 .epoch, .proceed 1 .epoch, .proceed 1 .epoch,
    .proceed 1 .epoch, .proceed 1 .epoch, .proceed 0 .epoch, .proceed 0 .epoch, .proceed 0 .epoch]

theorem desk_linearizable_overtaken :
    ((Traffic.opened oneOrder).run atStore overtaken).Complete ∧
    ∃ order : List (Visit × Nat), order.Perm [(payer, 0), (canceller, 1)] ∧
      (order.Pairwise fun a b =>
        ¬ Traffic.Precedes ((Traffic.opened oneOrder).run atStore overtaken).log b.2 a.2) ∧
      ∀ clock : Nat → Instant,
        ((Traffic.opened oneOrder).run atStore overtaken).state.Alike
          (reading.oneByOne clock order oneOrder).2 ∧
        ∀ {who : Nat} {v : Visit} {r : Reply},
          ((Traffic.opened oneOrder).run atStore overtaken).visits[who]? = some (v, .returned r) →
          ∃ r', (who, some r') ∈ (reading.oneByOne clock order oneOrder).1 ∧ r'.Alike r :=
  ⟨by decide, desk_linearizable oneOrder overtaken (by decide)⟩

end OrderDesk.Desk
