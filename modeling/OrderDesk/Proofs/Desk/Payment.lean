import OrderDesk.Proofs.Desk.History

/-!
# Payments are genuine

Every write replaces the payment details by those of a copy. They stay what they are all the same:
an order that was paid has the transaction that the payment service gave for exactly this order,
user and method, and an order that was not has none.

## Main definitions

* `Genuine`: the payment of a version is one that was charged
* `Accounted`: the payments of all versions are

## Main results

* `Genuine.of_writes`: a write from a genuine copy is genuine
* `accounted`: every traffic is accounted for
* `payment_genuine`: the payment of every order
-/

namespace OrderDesk.Desk

/-- **The payment of a version is genuine** after some exchanges: there is none before the order was
paid, and then it is one that was charged. -/
inductive Genuine (xs : List (Nat × Exchange Call Call.Answer)) (v : Order) : Prop
  | unpaid (status : v.status = .pendingPayment ∨ v.status = .cancelled)
    (transaction : v.transaction = none) (method : v.method = none)
  | paid {who : Nat} {transaction : String} {method : Method}
    (status : v.status = .paid ∨ v.status = .assembled)
    (transaction_eq : v.transaction = some transaction) (method_eq : v.method = some method)
    (charge : (who, charged v.id v.user method transaction) ∈ xs)

/-- **The payments of all versions are genuine.** -/
structure Accounted (a : Archive) (xs : List (Nat × Exchange Call Call.Answer)) : Prop where
  remembered : Remembered a xs
  genuine : ∀ v ∈ a.versions, Genuine xs v

namespace Genuine

variable {xs ys : List (Nat × Exchange Call Call.Answer)} {v w cur : Order} {who : Nat}
  {draw : Draw} {request : Request}

theorem mono (h : Genuine xs v) (hsub : xs ⊆ ys) : Genuine ys v := by
  cases h with
  | unpaid status transaction method => exact .unpaid status transaction method
  | paid status transaction method charge => exact .paid status transaction method (hsub charge)

theorem of_fresh (h : v.Fresh) : Genuine xs v :=
  .unpaid (.inl h.status) h.transaction h.method

/-- A payment is there exactly if the order was paid. -/
theorem transaction_isSome_iff (h : Genuine xs v) :
    v.transaction.isSome ↔ v.status = .paid ∨ v.status = .assembled := by
  cases h with
  | unpaid status transaction method => rcases status with hs | hs <;> simp [transaction, hs]
  | paid status transaction method charge => simp [transaction, status]

theorem method_isSome_iff (h : Genuine xs v) :
    v.method.isSome ↔ v.status = .paid ∨ v.status = .assembled := by
  cases h with
  | unpaid status transaction method => rcases status with hs | hs <;> simp [method, hs]
  | paid status transaction method charge => simp [method, status]

/-- **What is written over a genuine copy is genuine.** Paying has been preceded by the charge,
assembling hands on the payment of a copy that was paid, and cancelling hands on that there is
none. -/
theorem of_writes (h : Genuine xs v) (writes : Writes draw request (own who xs) v w) :
    Genuine xs w := by
  generalize hpast : own who xs = past at writes
  cases writes with
  | @pay id method transaction v w paid =>
    obtain ⟨-, rfl⟩ := Order.markPaid_eq_ok_iff.mp paid
    have hcharge : charged v.id v.user method transaction ∈ own who xs := by
      rw [hpast]
      simp
    exact .paid (.inl rfl) rfl rfl (mem_own.mp hcharge)
  | cancel cancelled =>
    obtain ⟨hs, rfl⟩ := Order.cancel_eq_ok_iff.mp cancelled
    cases h with
    | unpaid status transaction method => exact .unpaid (.inr rfl) transaction method
    | paid status => simp [hs] at status
  | assemble assembled =>
    obtain ⟨hs, rfl⟩ := Order.markAssembled_eq_ok_iff.mp assembled
    cases h with
    | unpaid status => simp [hs] at status
    | paid status transaction method charge => exact .paid (.inr rfl) transaction method charge
  | reassert => exact h

/-- What is genuine stays so when it is stored over another version of the same purchase. -/
theorem revised (h : Genuine xs w) (same : cur.SameIdentity w) (now : Instant) :
    Genuine xs (Store.revised cur w.status w.transaction w.method now) := by
  cases h with
  | unpaid status transaction method => exact .unpaid status transaction method
  | paid status transaction method charge =>
    rw [same.id, same.user] at charge
    exact .paid status transaction method charge

end Genuine

namespace Accounted

variable {a a' : Archive} {xs : List (Nat × Exchange Call Call.Answer)} {who : Nat}
  {x : Exchange Call Call.Answer}

theorem genuine_snoc (h : Accounted a xs) {v : Order} (hv : v ∈ a.versions) :
    Genuine (xs ++ [(who, x)]) v :=
  (h.genuine v hv).mono (List.subset_append_left _ _)

/-- **One exchange** is accounted for. -/
theorem exchange (h : Accounted a xs) (happens : Happens a (own who xs) x a') :
    Accounted a' (xs ++ [(who, x)]) := by
  refine ⟨h.remembered.exchange happens, ?_⟩
  cases happens with
  | quiet | looked | announced => exact fun v hv => h.genuine_snoc hv
  | placed free fresh gains =>
    intro v hv
    rw [gains.versions] at hv
    rcases List.mem_append.mp hv with hv | hv
    · exact h.genuine_snoc hv
    · obtain rfl := List.mem_singleton.mp hv
      exact .of_fresh fresh
  | @revised _ _ v w cur now _ writes current same gains =>
    intro u hu
    rw [gains.versions] at hu
    rcases List.mem_append.mp hu with hu | hu
    · exact h.genuine_snoc hu
    · obtain rfl := List.mem_singleton.mp hu
      obtain ⟨id, hmem⟩ := writes.loaded_mem
      have hv := h.remembered.loaded (mem_own.mp hmem)
      have hw := (h.genuine v (Archive.mem_history.mp hv).1).of_writes writes
      have hsame := h.remembered.sameIdentity_written writes current
      exact (hw.revised hsame now).mono (List.subset_append_left _ _)

end Accounted

/-- **Every traffic is accounted for**, if the store was empty. -/
theorem accounted (moves : List (Move Visit Circumstance)) :
    Accounted (trafficAt .empty moves).state (trafficAt .empty moves).exchanges :=
  archive_invariant (fun happens h => h.exchange happens)
    ⟨remembered_opened .empty, fun _ h => by cases h⟩ moves

/-- **The payment of every order**, in every traffic from an empty store. Transaction and method are
there together, and exactly if the order was paid; the payment service was asked for this order, its
user and this method, and answered with this transaction; and whatever happens later, neither ever
changes. -/
theorem payment_genuine (moves more : List (Move Visit Circumstance)) {id : Uuid} {o : Order}
    (stored : (trafficAt .empty moves).state.store.find? id = some o) :
    (o.transaction.isSome ↔ o.method.isSome) ∧
      (o.method.isSome ↔ o.status = .paid ∨ o.status = .assembled) ∧
      (∀ transaction method, o.transaction = some transaction → o.method = some method →
        ∃ who, (who, charged id o.user method transaction) ∈ (trafficAt .empty moves).exchanges) ∧
      ∃ o', (trafficAt .empty (moves ++ more)).state.store.find? id = some o' ∧
        (∀ transaction, o.transaction = some transaction → o'.transaction = some transaction) ∧
        ∀ method, o.method = some method → o'.method = some method := by
  have h := accounted moves
  have hmem := h.remembered.sound.mem_of_find? stored
  obtain ⟨hversion, rfl⟩ := Archive.mem_history.mp hmem
  have hgenuine := h.genuine o hversion
  refine ⟨hgenuine.transaction_isSome_iff.trans hgenuine.method_isSome_iff.symm,
    hgenuine.method_isSome_iff, ?_, ?_⟩
  · intro transaction method ht hm
    cases hgenuine with
    | unpaid _ hnone _ =>
      rw [hnone] at ht
      cases ht
    | paid _ ht' hm' charge =>
      obtain rfl := Option.some.inj (ht'.symm.trans ht)
      obtain rfl := Option.some.inj (hm'.symm.trans hm)
      exact ⟨_, charge⟩
  · obtain ⟨o', ho', hev⟩ := evolves_later .empty moves more hmem
    have hkeeps : o.status ≠ .pendingPayment → o.SamePayment o' := fun hs => hev.payment (.inr hs)
    refine ⟨o', ho', fun transaction ht => ?_, fun method hm => ?_⟩
    · have hs := hgenuine.transaction_isSome_iff.mp (by simp [ht])
      exact (hkeeps (by rcases hs with hs | hs <;> simp [hs])).transaction.trans ht
    · have hs := hgenuine.method_isSome_iff.mp (by simp [hm])
      exact (hkeeps (by rcases hs with hs | hs <;> simp [hs])).method.trans hm

theorem payment_genuine_sold :
    (trafficAt .empty sold).state.store.find? .nil = some soldOrder ∧
      (∃ who, (who, charged .nil "u-1" .card "t-1") ∈ (trafficAt .empty sold).exchanges) ∧
      ∃ o, (trafficAt .empty (sold ++ built)).state.store.find? .nil = some o ∧
        o.transaction = some "t-1" ∧ o.method = some .card := by
  have hsold : (trafficAt .empty sold).state.store.find? .nil = some soldOrder := by
    decide +kernel
  obtain ⟨-, -, charge, o, ho, ht, hm⟩ := payment_genuine sold built hsold
  exact ⟨hsold, charge "t-1" .card rfl rfl, o, ho, ht "t-1" rfl, hm .card rfl⟩

end OrderDesk.Desk
