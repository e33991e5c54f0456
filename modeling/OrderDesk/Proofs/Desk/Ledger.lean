import OrderDesk.Proofs.Desk.Law

/-!
# Operations alone, to the last detail

A ledger is a store with its counters, and a list of all that was asked of the payment service and
of the announcer. For an operation that is alone with a ledger, all of its effects can be told: what
it leaves in the store, what it counts, and whom it asked for what.

## Main definitions

* `Ledger`, `Ledger.answer`: the answers over a ledger

## Main results

* `run_get`, `run_place`, `run_pay`, `run_cancel`, `run_assemble`: the result of each operation and
  the ledger after it
-/

namespace OrderDesk.Desk

/-- **A ledger**: the store, the counters, and what was asked of the payment service and of the
announcer with the answers they gave, oldest first. -/
structure Ledger where
  store : Store
  counters : Counters
  outside : List (Exchange Call Call.Answer)

namespace Ledger

/-- The ledger with one more exchange outside. -/
def noting (l : Ledger) (x : Exchange Call Call.Answer) : Ledger :=
  { l with outside := l.outside ++ [x] }

/-- **The answers over a ledger**, by what others say, at a time. -/
def answer (o : Outcomes) (now : Instant) : (call : Call) → Ledger → Option call.Answer × Ledger
  | .listParts _, l => (some o.parts, l)
  | .charge id user method, l => (some o.charge, l.noting ⟨.charge id user method, o.charge⟩)
  | .publish event, l => (some o.publish, l.noting ⟨.publish event, o.publish⟩)
  | .create order, l =>
    match o.answer now (.create order) l.store with
    | (answer, store) => (answer, { l with store })
  | .load id, l => (some (l.store.load id), l)
  | .update order expected, l =>
    match o.answer now (.update order expected) l.store with
    | (answer, store) => (answer, { l with store })
  | .count tally, l =>
    match l.counters.count tally with
    | some counters => (some (), { l with counters })
    | none => (none, l)

/-- The ledger after a step of an order that was counted. -/
def moved (l : Ledger) (id : Uuid) (status : Status) (transaction : Option String)
    (method : Option Method) (now : Instant) : Ledger :=
  { l with
    store := l.store.revise id status transaction method now
    counters := l.counters.add (.moved status) }

/-- The ledger after a new order was stored and counted, without its total. -/
def entered (l : Ledger) (store : Store) : Ledger :=
  { l with store, counters := l.counters.add .created }

/-- The ledger after its total was counted as well. -/
def earning (l : Ledger) (total : Float) : Ledger :=
  { l with counters := l.counters.add (.earned total) }

end Ledger

variable (o : Outcomes) (draw : Draw) (now : Instant) (l : Ledger)

/-- **A look at an order** changes nothing. -/
theorem run_get (id : Uuid) :
    (Desk.get id).run (Ledger.answer o now) l =
      (some (match l.store.find? id with
        | some v => .ok v
        | none => .error (.orderNotFound id)), l) := by
  cases h : l.store.find? id with
  | none =>
    simp [Desk.get, Program.run, Ledger.answer, Store.load_of_find?_none h, refuse,
      DeskError.ofStore]
  | some v => simp [Desk.get, Program.run, Ledger.answer, Store.load_of_find? h]

/-- **A cancellation** alone. -/
theorem run_cancel (id : Uuid) :
    (Desk.cancel id draw.now).run (Ledger.answer o now) l =
      match l.store.find? id with
      | none => (some (.error (.orderNotFound id)), l)
      | some v =>
        if v.status = .pendingPayment then
          (some (.ok ()), l.moved id .cancelled v.transaction v.method now)
        else (some (.error (.invalidStatus id v.status)), l) := by
  cases h : l.store.find? id with
  | none =>
    simp [Desk.cancel, Program.run, Ledger.answer, Store.load_of_find?_none h, refuse,
      DeskError.ofStore]
  | some v =>
    obtain rfl := Store.id_of_find? h
    by_cases hs : v.status = .pendingPayment
    · have hc : v.cancel draw.now = .ok { v with status := .cancelled, updatedAt := draw.now } :=
        Order.cancel_eq_ok_iff.mpr ⟨hs, rfl⟩
      have hu : l.store.update { v with status := .cancelled, updatedAt := draw.now }
          .pendingPayment now = .ok (l.store.revise v.id .cancelled v.transaction v.method now) :=
        Store.update_of_find? h hs
      simp [Desk.cancel, Program.run, Ledger.answer, Outcomes.answer, Store.load_of_find? h, hc,
        hu, hs, Ledger.moved]
    · simp [Desk.cancel, Program.run, Ledger.answer, Store.load_of_find? h,
        Order.cancel_of_ne hs, hs, refuse, DeskError.ofOrder]

/-- **News of an assembly** alone. It is counted only for an order that was paid. -/
theorem run_assemble (id : Uuid) :
    (Desk.assemble id draw.now).run (Ledger.answer o now) l =
      match l.store.find? id with
      | none => (some (.error (.orderNotFound id)), l)
      | some v =>
        if v.status = .paid then
          (some (.ok ()), l.moved id .assembled v.transaction v.method now)
        else if v.status = .assembled then
          (some (.ok ()),
            { l with store := l.store.revise id .assembled v.transaction v.method now })
        else (some (.error (.invalidStatus id v.status)), l) := by
  cases h : l.store.find? id with
  | none =>
    simp [Desk.assemble, Program.run, Ledger.answer, Store.load_of_find?_none h, refuse,
      DeskError.ofStore]
  | some v =>
    obtain rfl := Store.id_of_find? h
    by_cases ha : v.status = .assembled
    · have hu : l.store.update v .assembled now =
          .ok (l.store.revise v.id v.status v.transaction v.method now) :=
        Store.update_of_find? h ha
      simp [Desk.assemble, reassert, Program.run, Ledger.answer, Outcomes.answer,
        Store.load_of_find? h, hu, ha]
    · by_cases hs : v.status = .paid
      · have hm : v.markAssembled draw.now =
            .ok { v with status := .assembled, updatedAt := draw.now } :=
          Order.markAssembled_eq_ok_iff.mpr ⟨hs, rfl⟩
        have hu : l.store.update { v with status := .assembled, updatedAt := draw.now } .paid now =
            .ok (l.store.revise v.id .assembled v.transaction v.method now) :=
          Store.update_of_find? h hs
        simp [Desk.assemble, Program.run, Ledger.answer, Outcomes.answer, Store.load_of_find? h,
          hm, hu, hs, Ledger.moved]
      · simp [Desk.assemble, Program.run, Ledger.answer, Store.load_of_find? h,
          Order.markAssembled_of_ne hs, ha, hs, refuse, DeskError.ofOrder]

/-- **A payment** alone. -/
theorem run_pay (id : Uuid) (method : Method) :
    (Desk.pay id method draw).run (Ledger.answer o now) l =
      match l.store.find? id with
      | none => (some (.error (.orderNotFound id)), l)
      | some v =>
        if v.status = .pendingPayment then
          match o.charge with
          | .error e =>
            (some (.error .paymentFailed), l.noting ⟨.charge id v.user method, .error e⟩)
          | .ok transaction =>
            (some (announced o.publish transaction),
              ((l.moved id .paid (some transaction) (some method) now).noting
                  (charged id v.user method transaction)).noting
                ⟨.publish ⟨draw.id, id, v.user, method, transaction⟩, o.publish⟩)
        else (some (.error (.invalidStatus id v.status)), l) := by
  cases h : l.store.find? id with
  | none =>
    simp [Desk.pay, Program.run, Ledger.answer, Store.load_of_find?_none h, refuse,
      DeskError.ofStore]
  | some v =>
    obtain rfl := Store.id_of_find? h
    by_cases hs : v.status = .pendingPayment
    · have he : v.ensureCanBecome .paid = .ok () :=
        Order.ensureCanBecome_eq_ok_iff.mpr (Status.canBecome_paid_iff.mpr hs)
      cases hcharge : o.charge with
      | error e =>
        simp [Desk.pay, Program.run, Ledger.answer, Store.load_of_find? h, he, hs, hcharge, refuse]
      | ok transaction =>
        have hm : v.markPaid transaction method draw.now = .ok { v with
            status := .paid, transaction := some transaction, method := some method,
            updatedAt := draw.now } := Order.markPaid_eq_ok_iff.mpr ⟨hs, rfl⟩
        have hu : l.store.update { v with
            status := .paid, transaction := some transaction, method := some method,
            updatedAt := draw.now } .pendingPayment now =
              .ok (l.store.revise v.id .paid (some transaction) (some method) now) :=
          Store.update_of_find? h hs
        cases hpublish : o.publish with
        | error e =>
          simp [Desk.pay, settle, announce, Program.run, Ledger.answer, Outcomes.answer,
            Ledger.noting, Store.load_of_find? h, he, hs, hcharge, hm, hu, hpublish, announced,
            refuse, Ledger.moved, charged]
        | ok _ =>
          simp [Desk.pay, settle, announce, Program.run, Ledger.answer, Outcomes.answer,
            Ledger.noting, Store.load_of_find? h, he, hs, hcharge, hm, hu, hpublish, announced,
            Ledger.moved, charged]
    · have he : v.ensureCanBecome .paid = .error ⟨v.status, .paid⟩ := by
        simp [Order.ensureCanBecome, mt Status.canBecome_paid_iff.mp hs]
      simp [Desk.pay, Program.run, Ledger.answer, Store.load_of_find? h, he, hs, refuse,
        DeskError.ofOrder]

/-- **A new order** alone. There is no result while every id drawn for it is in use, and none if its
total is not counted; then it is stored all the same. -/
theorem run_place (user : String) (ids : List String) :
    (Desk.place user ids draw).run (Ledger.answer o now) l =
      match quoted ids o.parts with
      | .error e => (some (.error e), l)
      | .ok total =>
        match l.store.create (Order.placed draw.id draw.now user ids total) o.draws with
        | none => (none, l)
        | some (created, store) =>
          if 0 ≤ created.total then
            (some (.ok created), (l.entered store).earning created.total)
          else (none, l.entered store) := by
  cases hids : ids.isEmpty with
  | true => simp [Desk.place, quoted, hids, refuse]
  | false =>
    cases hparts : o.parts with
    | error e =>
      simp [Desk.place, quoted, hids, Program.run, Ledger.answer, hparts, refuse]
    | ok parts =>
      cases hprice : price ids.length parts with
      | error e =>
        simp [Desk.place, quoted, hids, Program.run, Ledger.answer, hparts, hprice, refuse]
      | ok total =>
        cases hcreate : l.store.create (Order.placed draw.id draw.now user ids total) o.draws with
        | none =>
          simp [Desk.place, placePriced, quoted, hids, Program.run, Ledger.answer,
            Outcomes.answer, hparts, hprice, hcreate]
        | some created =>
          by_cases htotal : 0 ≤ created.1.total
          · simp [Desk.place, placePriced, quoted, hids, Program.run, Ledger.answer, Ledger.entered,
              Ledger.earning, Outcomes.answer, Counters.count_earned, hparts, hprice, hcreate, htotal]
          · simp [Desk.place, placePriced, quoted, hids, Program.run, Ledger.answer, Ledger.entered,
              Outcomes.answer, Counters.count_earned, hparts, hprice, hcreate, htotal]

end OrderDesk.Desk
