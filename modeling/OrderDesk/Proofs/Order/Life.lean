import Mathlib.Logic.Relation
import OrderDesk.Store.Basic

/-!
# The versions of an order

An order is stored again and again. What was stored next differs only in its status, its payment
and the time of the change; the status takes at most one legal step, and the payment changes only
when the order is paid. Over many versions that adds up to a relation that can be followed from any
earlier copy to the current one.

## Main definitions

* `Status.LeadsTo`: legal steps, any number of them
* `Order.SameIdentity`, `Order.SamePayment`, `Order.Fresh`
* `Order.Succeeds`: what the next version of an order can be
* `Order.Evolves`: what a later version can be

## Main results

* `Status.leadsTo_iff`, `Status.LeadsTo.antisymm`: no status that was left is reached again
* `Order.Evolves.trans`, `Order.Succeeds.evolves`
* `Order.Evolves.succeeds_revised`: writing over a copy is a next version if the status still is the
  one of the copy
-/

namespace OrderDesk

namespace Status

/-- **Legal steps**, any number of them. -/
def LeadsTo : Status → Status → Prop :=
  Relation.ReflTransGen fun s t => s.canBecome t = true

theorem leadsTo_of_canBecome {s t : Status} (h : s.canBecome t = true) : s.LeadsTo t :=
  Relation.ReflTransGen.single h

/-- There are three legal steps. -/
theorem canBecome_iff {s t : Status} :
    s.canBecome t = true ↔ (s, t) ∈ [(.pendingPayment, .paid), (.pendingPayment, .cancelled),
      ((.paid : Status), (.assembled : Status))] := by
  cases s <;> cases t <;> decide

theorem canBecome_paid_iff {s : Status} : s.canBecome .paid = true ↔ s = .pendingPayment := by
  cases s <;> simp [canBecome]

theorem canBecome_cancelled_iff {s : Status} :
    s.canBecome .cancelled = true ↔ s = .pendingPayment := by
  cases s <;> simp [canBecome]

theorem canBecome_assembled_iff {s : Status} : s.canBecome .assembled = true ↔ s = .paid := by
  cases s <;> simp [canBecome]

/-- Everything is reached from the first status, and of the others only `paid` leads on. -/
theorem leadsTo_iff {s t : Status} :
    s.LeadsTo t ↔ s = t ∨ s = .pendingPayment ∨ s = .paid ∧ t = .assembled := by
  constructor
  · intro h
    induction h with
    | refl => exact .inl rfl
    | @tail t u _ step ih =>
      rcases ih with rfl | rfl | ⟨rfl, rfl⟩
      · cases s <;> cases u <;> simp_all [canBecome]
      · exact .inr (.inl rfl)
      · simp [canBecome] at step
  · rintro (rfl | rfl | ⟨rfl, rfl⟩)
    · exact .refl
    · cases t with
      | pendingPayment => exact .refl
      | paid => exact leadsTo_of_canBecome rfl
      | cancelled => exact leadsTo_of_canBecome rfl
      | assembled => exact (leadsTo_of_canBecome (t := .paid) rfl).trans (leadsTo_of_canBecome rfl)
    · exact leadsTo_of_canBecome rfl

theorem LeadsTo.antisymm {s t : Status} (h : s.LeadsTo t) (h' : t.LeadsTo s) : s = t := by
  rcases leadsTo_iff.mp h with rfl | rfl | ⟨rfl, rfl⟩
  · rfl
  · rcases leadsTo_iff.mp h' with rfl | rfl | ⟨-, h'⟩
    · rfl
    · rfl
    · cases h'
  · rcases leadsTo_iff.mp h' with h' | h' | ⟨h', -⟩ <;> cases h'

/-- An assembled order stays so. -/
theorem leadsTo_assembled {t : Status} (h : Status.assembled.LeadsTo t) : t = .assembled := by
  rcases leadsTo_iff.mp h with rfl | h | ⟨h, -⟩
  · rfl
  · cases h
  · cases h

theorem leadsTo_of_paid {t : Status} (h : Status.paid.LeadsTo t) : t = .paid ∨ t = .assembled := by
  rcases leadsTo_iff.mp h with rfl | h | ⟨-, rfl⟩
  · exact .inl rfl
  · cases h
  · exact .inr rfl

/-- The first status is reached only from itself. -/
theorem LeadsTo.eq_pending {s : Status} (h : s.LeadsTo .pendingPayment) : s = .pendingPayment := by
  rcases leadsTo_iff.mp h with rfl | rfl | ⟨-, h⟩
  · rfl
  · rfl
  · cases h

end Status

namespace Order

/-- What never changes about an order. -/
structure SameIdentity (v w : Order) : Prop where
  id : w.id = v.id
  user : w.user = v.user
  parts : w.parts = v.parts
  total : w.total = v.total
  createdAt : w.createdAt = v.createdAt

/-- The same payment details, or the same lack of them. -/
structure SamePayment (v w : Order) : Prop where
  transaction : w.transaction = v.transaction
  method : w.method = v.method

/-- **The first version of an order** waits for its payment. -/
structure Fresh (v : Order) : Prop where
  status : v.status = .pendingPayment
  transaction : v.transaction = none
  method : v.method = none

/-- **What the next version of an order can be.** -/
structure Succeeds (v w : Order) : Prop where
  identity : SameIdentity v w
  status : w.status = v.status ∨ v.status.canBecome w.status = true
  payment : SamePayment v w ∨ v.status = .pendingPayment ∧ w.status = .paid

/-- **What a later version of an order can be.** Only an order that waits for its payment can still
change it, and only together with its status. -/
structure Evolves (v w : Order) : Prop where
  identity : SameIdentity v w
  status : v.status.LeadsTo w.status
  payment : v.status = w.status ∨ v.status ≠ .pendingPayment → SamePayment v w

theorem SameIdentity.refl (v : Order) : SameIdentity v v := ⟨rfl, rfl, rfl, rfl, rfl⟩

theorem SameIdentity.symm {v w : Order} (h : SameIdentity v w) : SameIdentity w v :=
  ⟨h.id.symm, h.user.symm, h.parts.symm, h.total.symm, h.createdAt.symm⟩

theorem SameIdentity.trans {u v w : Order} (h : SameIdentity u v) (h' : SameIdentity v w) :
    SameIdentity u w :=
  ⟨h'.id.trans h.id, h'.user.trans h.user, h'.parts.trans h.parts, h'.total.trans h.total,
    h'.createdAt.trans h.createdAt⟩

theorem SamePayment.refl (v : Order) : SamePayment v v := ⟨rfl, rfl⟩

theorem SamePayment.trans {u v w : Order} (h : SamePayment u v) (h' : SamePayment v w) :
    SamePayment u w :=
  ⟨h'.transaction.trans h.transaction, h'.method.trans h.method⟩

theorem Evolves.refl (v : Order) : Evolves v v :=
  ⟨.refl v, .refl, fun _ => .refl v⟩

theorem Evolves.trans {u v w : Order} (h : Evolves u v) (h' : Evolves v w) : Evolves u w where
  identity := h.identity.trans h'.identity
  status := h.status.trans h'.status
  payment := by
    rintro (he | hn)
    · -- back at the same status means that it was never left
      have hv : u.status = v.status := h.status.antisymm (he ▸ h'.status)
      exact (h.payment (.inl hv)).trans (h'.payment (.inl (hv ▸ he)))
    · have hv : v.status ≠ .pendingPayment := fun hv => hn (hv ▸ h.status).eq_pending
      exact (h.payment (.inr hn)).trans (h'.payment (.inr hv))

instance : Std.Refl Evolves := ⟨Evolves.refl⟩

instance : Trans Evolves Evolves Evolves := ⟨Evolves.trans⟩

theorem Succeeds.evolves {v w : Order} (h : Succeeds v w) : Evolves v w where
  identity := h.identity
  status := by
    rcases h.status with he | hc
    · rw [he]
      exact .refl
    · exact Status.leadsTo_of_canBecome hc
  payment := by
    intro hs
    rcases h.payment with hp | ⟨hv, hw⟩
    · exact hp
    · rcases hs with he | hn
      · rw [hv, hw] at he
        cases he
      · exact absurd hv hn

/-- **Writing over a copy.** If `v` is an earlier copy of the order stored as `cur`, and the status
still is that of the copy, then the next version made from the copy is one of `cur` as well: the
payment that the writer has in hand is the current one. -/
theorem Evolves.succeeds_revised {v cur w : Order} (h : Evolves v cur)
    (hs : cur.status = v.status) (hw : Succeeds v w) (now : Instant) :
    Succeeds cur (Store.revised cur w.status w.transaction w.method now) where
  identity := ⟨rfl, rfl, rfl, rfl, rfl⟩
  status := by
    rw [hs]
    exact hw.status
  payment := by
    have hp := h.payment (.inl hs.symm)
    rcases hw.payment with hp' | ⟨hv, hw⟩
    · exact .inl ⟨hp'.transaction.trans hp.transaction.symm, hp'.method.trans hp.method.symm⟩
    · exact .inr ⟨hs.trans hv, hw⟩

/-- What is stored for a write is a later version of what was written. -/
theorem SameIdentity.evolves_revised {cur w : Order} (h : SameIdentity cur w) (now : Instant) :
    Evolves w (Store.revised cur w.status w.transaction w.method now) where
  identity := ⟨h.id.symm, h.user.symm, h.parts.symm, h.total.symm, h.createdAt.symm⟩
  status := .refl
  payment _ := ⟨rfl, rfl⟩

/-! ## The steps of an order -/

theorem ensureCanBecome_eq_ok_iff {v : Order} {next : Status} {u : Unit} :
    v.ensureCanBecome next = .ok u ↔ v.status.canBecome next = true := by
  unfold ensureCanBecome
  split <;> simp [*]

theorem advance_eq_ok_iff {v w : Order} {next : Status} {now : Instant} :
    v.advance next now = .ok w ↔
      v.status.canBecome next = true ∧ w = { v with status := next, updatedAt := now } := by
  unfold advance ensureCanBecome
  split
  · rename_i h
    split at h
    · rename_i hc
      simp [hc, eq_comm]
    · cases h
  · rename_i h
    split at h
    · cases h
    · rename_i hc
      simp [hc]

theorem advance_of_not {v : Order} {next : Status} (h : ¬ v.status.canBecome next = true)
    (now : Instant) : v.advance next now = .error ⟨v.status, next⟩ := by
  simp [advance, ensureCanBecome, h]

theorem markPaid_eq_ok_iff {v w : Order} {transaction : String} {method : Method}
    {now : Instant} :
    v.markPaid transaction method now = .ok w ↔
      v.status = .pendingPayment ∧ w = { v with
        status := .paid, transaction := some transaction, method := some method,
        updatedAt := now } := by
  rw [← Status.canBecome_paid_iff]
  unfold markPaid
  split
  · rename_i o h
    obtain ⟨hc, rfl⟩ := advance_eq_ok_iff.mp h
    simp [hc, eq_comm]
  · rename_i e h
    have hc : ¬ v.status.canBecome .paid = true := fun hc => by
      rw [advance_eq_ok_iff.mpr ⟨hc, rfl⟩] at h
      cases h
    simp [hc]

theorem cancel_eq_ok_iff {v w : Order} {now : Instant} :
    v.cancel now = .ok w ↔
      v.status = .pendingPayment ∧ w = { v with status := .cancelled, updatedAt := now } := by
  rw [← Status.canBecome_cancelled_iff]
  exact advance_eq_ok_iff

theorem markAssembled_eq_ok_iff {v w : Order} {now : Instant} :
    v.markAssembled now = .ok w ↔
      v.status = .paid ∧ w = { v with status := .assembled, updatedAt := now } := by
  rw [← Status.canBecome_assembled_iff]
  exact advance_eq_ok_iff

theorem Succeeds.refl (v : Order) : Succeeds v v :=
  ⟨.refl v, .inl rfl, .inl (.refl v)⟩

theorem cancel_of_ne {v : Order} (h : v.status ≠ .pendingPayment) (now : Instant) :
    v.cancel now = .error ⟨v.status, .cancelled⟩ :=
  advance_of_not (mt Status.canBecome_cancelled_iff.mp h) now

theorem markAssembled_of_ne {v : Order} (h : v.status ≠ .paid) (now : Instant) :
    v.markAssembled now = .error ⟨v.status, .assembled⟩ :=
  advance_of_not (mt Status.canBecome_assembled_iff.mp h) now

theorem succeeds_of_markPaid {v w : Order} {transaction : String} {method : Method}
    {now : Instant} (h : v.markPaid transaction method now = .ok w) : Succeeds v w := by
  obtain ⟨hv, rfl⟩ := markPaid_eq_ok_iff.mp h
  exact ⟨⟨rfl, rfl, rfl, rfl, rfl⟩, .inr (by rw [hv]; rfl), .inr ⟨hv, rfl⟩⟩

theorem succeeds_of_cancel {v w : Order} {now : Instant} (h : v.cancel now = .ok w) :
    Succeeds v w := by
  obtain ⟨hv, rfl⟩ := cancel_eq_ok_iff.mp h
  exact ⟨⟨rfl, rfl, rfl, rfl, rfl⟩, .inr (by rw [hv]; rfl), .inl ⟨rfl, rfl⟩⟩

theorem succeeds_of_markAssembled {v w : Order} {now : Instant}
    (h : v.markAssembled now = .ok w) : Succeeds v w := by
  obtain ⟨hv, rfl⟩ := markAssembled_eq_ok_iff.mp h
  exact ⟨⟨rfl, rfl, rfl, rfl, rfl⟩, .inr (by rw [hv]; rfl), .inl ⟨rfl, rfl⟩⟩

end Order

end OrderDesk
