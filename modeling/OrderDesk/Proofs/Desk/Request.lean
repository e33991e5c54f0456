import OrderDesk.Desk.Basic
import OrderDesk.Proofs.Store.Alike
import OrderDesk.Proofs.Traffic.Linear

/-!
# Requests at a store

A request is one of the five operations. A visit is a request with all that is drawn for it and all
that the inventory, the payment service and the announcer will say to it; its other questions go to
a store.

## Main definitions

* `Request`, `Reply`, `Request.program`
* `Outcomes`, `Outcomes.answer`: the answers to a visit over a store
* `Visit`, `Visit.alone`, `atStore`: a visit by itself, and the rules of many

## Main results

* `alone_place`, `alone_get`, `alone_pay`, `alone_cancel`, `alone_assemble`: what a visit by itself
  does to the store, and what it is told
-/

namespace OrderDesk

namespace Program

variable {Q : Type} {A : Q → Type} {R S σ : Type}

@[simp] theorem map_done (r : R) (f : R → S) : (done r : Program Q A R).map f = done (f r) := rfl

@[simp] theorem map_ask (q : Q) (next : A q → Program Q A R) (f : R → S) :
    (ask q next).map f = ask q fun a => (next a).map f := rfl

@[simp] theorem run_done (answer : (q : Q) → σ → Option (A q) × σ) (r : R) (s : σ) :
    (done r : Program Q A R).run answer s = (some r, s) := rfl

end Program

namespace Desk

/-- **A request**: one of the operations of the desk. -/
inductive Request where
  | place (user : String) (ids : List String)
  | get (id : Uuid)
  | pay (id : Uuid) (method : Method)
  | cancel (id : Uuid)
  | assemble (id : Uuid)
  deriving DecidableEq

/-- **What a request is told.** -/
inductive Reply where
  | order (result : Except DeskError Order)
  | transaction (result : Except DeskError String)
  | done (result : Except DeskError Unit)

/-- The program of a request. -/
def Request.program (draw : Draw) : Request → Program Call Call.Answer Reply
  | .place user ids => (Desk.place user ids draw).map .order
  | .get id => (Desk.get id).map .order
  | .pay id method => (Desk.pay id method draw).map .transaction
  | .cancel id => (Desk.cancel id draw.now).map .done
  | .assemble id => (Desk.assemble id draw.now).map .done

/-- **What others will say to a visit**: the inventory, the payment service and the announcer; and
the ids that are drawn should its own be in use. -/
structure Outcomes where
  parts : Except ClientError (List Part)
  charge : Except ClientError String
  publish : Except PublishError Unit
  draws : List Uuid

/-- **The answers to a visit over a store**, at a time. A creation has no answer while every id
drawn for it is in use. -/
def Outcomes.answer (o : Outcomes) (now : Instant) :
    (call : Call) → Store → Option call.Answer × Store
  | .listParts _, s => (some o.parts, s)
  | .charge _ _ _, s => (some o.charge, s)
  | .publish _, s => (some o.publish, s)
  | .create order, s =>
    match s.create order o.draws with
    | some (created, s) => (some (.ok created), s)
    | none => (none, s)
  | .load id, s => (some (s.load id), s)
  | .update order expected, s =>
    match s.update order expected now with
    | .ok s => (some (.ok ()), s)
    | .error e => (some (.error e), s)
  | .count _, s => (some (), s)

theorem answered_inj {α σ : Type} {a a' : α} {s s' : σ} (h : (some a, s) = (some a', s')) :
    a = a' ∧ s = s' := by
  obtain ⟨ha, hs⟩ := Prod.mk.inj h
  exact ⟨Option.some.inj ha, hs⟩

/-- **A visit**: a request, the id and the time drawn for it, and what others will say to it. -/
structure Visit where
  request : Request
  draw : Draw
  outcomes : Outcomes

/-- The program of a visit. -/
def Visit.program (v : Visit) : Program Call Call.Answer Reply :=
  v.request.program v.draw

/-- **The rules of visits over a store**: by chance time passes. -/
def atStore : Rules Visit Instant Call Call.Answer Reply Store where
  program := Visit.program
  answer v now := v.outcomes.answer now

/-- **A visit alone** with the store, at another time. -/
def Visit.alone (v : Visit) (now : Instant) (s : Store) : Option Reply × Store :=
  (v.request.program { v.draw with now }).run (v.outcomes.answer now) s

/-! ## Visits alone -/

/-- What a payer is told, once the order is paid and that was announced or not. -/
def announced (publish : Except PublishError Unit) (transaction : String) :
    Except DeskError String :=
  match publish with
  | .ok _ => .ok transaction
  | .error e => .error (.internal ("failed to publish order paid event: " ++ e.message))

/-- The total of an order, by what the inventory says, or why there is none. -/
def quoted (ids : List String) (parts : Except ClientError (List Part)) : Except DeskError Float :=
  if ids.isEmpty then .error (.badRequest "order must contain at least one part")
  else match parts with
    | .error e => .error (.internal ("inventory lookup failed: " ++ e.message))
    | .ok parts => price ids.length parts

section Alone

variable (draw : Draw) (o : Outcomes) (now : Instant) (s : Store)

theorem alone_get (id : Uuid) :
    Visit.alone ⟨.get id, draw, o⟩ now s =
      (some (.order (match s.find? id with
        | some v => .ok v
        | none => .error (.orderNotFound id))), s) := by
  cases h : s.find? id with
  | none =>
    simp [Visit.alone, Request.program, Desk.get, Program.run, Outcomes.answer,
      Store.load_of_find?_none h, refuse, DeskError.ofStore]
  | some v =>
    simp [Visit.alone, Request.program, Desk.get, Program.run, Outcomes.answer,
      Store.load_of_find? h]

theorem alone_cancel (id : Uuid) :
    Visit.alone ⟨.cancel id, draw, o⟩ now s =
      match s.find? id with
      | none => (some (.done (.error (.orderNotFound id))), s)
      | some v =>
        if v.status = .pendingPayment then
          (some (.done (.ok ())), s.revise id .cancelled v.transaction v.method now)
        else (some (.done (.error (.invalidStatus id v.status))), s) := by
  cases h : s.find? id with
  | none =>
    simp [Visit.alone, Request.program, Desk.cancel, Program.run, Outcomes.answer,
      Store.load_of_find?_none h, refuse, DeskError.ofStore]
  | some v =>
    obtain rfl := Store.id_of_find? h
    by_cases hs : v.status = .pendingPayment
    · have hc : v.cancel now = .ok { v with status := .cancelled, updatedAt := now } :=
        Order.cancel_eq_ok_iff.mpr ⟨hs, rfl⟩
      have hu : s.update { v with status := .cancelled, updatedAt := now } .pendingPayment now =
          .ok (s.revise v.id .cancelled v.transaction v.method now) :=
        Store.update_of_find? h hs
      simp [Visit.alone, Request.program, Desk.cancel, Program.run, Outcomes.answer,
        Store.load_of_find? h, hc, hu, hs]
    · simp [Visit.alone, Request.program, Desk.cancel, Program.run, Outcomes.answer,
        Store.load_of_find? h, Order.cancel_of_ne hs, hs, refuse, DeskError.ofOrder]

theorem alone_assemble (id : Uuid) :
    Visit.alone ⟨.assemble id, draw, o⟩ now s =
      match s.find? id with
      | none => (some (.done (.error (.orderNotFound id))), s)
      | some v =>
        if v.status = .paid ∨ v.status = .assembled then
          (some (.done (.ok ())), s.revise id .assembled v.transaction v.method now)
        else (some (.done (.error (.invalidStatus id v.status))), s) := by
  cases h : s.find? id with
  | none =>
    simp [Visit.alone, Request.program, Desk.assemble, Program.run, Outcomes.answer,
      Store.load_of_find?_none h, refuse, DeskError.ofStore]
  | some v =>
    obtain rfl := Store.id_of_find? h
    by_cases ha : v.status = .assembled
    · have hu : s.update v .assembled now =
          .ok (s.revise v.id v.status v.transaction v.method now) :=
        Store.update_of_find? h ha
      simp [Visit.alone, Request.program, Desk.assemble, reassert, Program.run, Outcomes.answer,
        Store.load_of_find? h, hu, ha]
    · by_cases hs : v.status = .paid
      · have hm : v.markAssembled now = .ok { v with status := .assembled, updatedAt := now } :=
          Order.markAssembled_eq_ok_iff.mpr ⟨hs, rfl⟩
        have hu : s.update { v with status := .assembled, updatedAt := now } .paid now =
            .ok (s.revise v.id .assembled v.transaction v.method now) :=
          Store.update_of_find? h hs
        simp [Visit.alone, Request.program, Desk.assemble, Program.run, Outcomes.answer,
          Store.load_of_find? h, hm, hu, hs]
      · simp [Visit.alone, Request.program, Desk.assemble, Program.run, Outcomes.answer,
          Store.load_of_find? h, Order.markAssembled_of_ne hs, ha, hs, refuse, DeskError.ofOrder]

theorem alone_pay (id : Uuid) (method : Method) :
    Visit.alone ⟨.pay id method, draw, o⟩ now s =
      match s.find? id with
      | none => (some (.transaction (.error (.orderNotFound id))), s)
      | some v =>
        if v.status = .pendingPayment then
          match o.charge with
          | .error _ => (some (.transaction (.error .paymentFailed)), s)
          | .ok transaction =>
            (some (.transaction (announced o.publish transaction)),
              s.revise id .paid (some transaction) (some method) now)
        else (some (.transaction (.error (.invalidStatus id v.status))), s) := by
  cases h : s.find? id with
  | none =>
    simp [Visit.alone, Request.program, Desk.pay, Program.run, Outcomes.answer,
      Store.load_of_find?_none h, refuse, DeskError.ofStore]
  | some v =>
    obtain rfl := Store.id_of_find? h
    by_cases hs : v.status = .pendingPayment
    · have he : v.ensureCanBecome .paid = .ok () :=
        Order.ensureCanBecome_eq_ok_iff.mpr (Status.canBecome_paid_iff.mpr hs)
      cases hcharge : o.charge with
      | error e =>
        simp [Visit.alone, Request.program, Desk.pay, Program.run, Outcomes.answer,
          Store.load_of_find? h, he, hs, hcharge, refuse]
      | ok transaction =>
        have hm : v.markPaid transaction method now = .ok { v with
            status := .paid, transaction := some transaction, method := some method,
            updatedAt := now } := Order.markPaid_eq_ok_iff.mpr ⟨hs, rfl⟩
        have hu : s.update { v with
            status := .paid, transaction := some transaction, method := some method,
            updatedAt := now } .pendingPayment now =
              .ok (s.revise v.id .paid (some transaction) (some method) now) :=
          Store.update_of_find? h hs
        cases hpublish : o.publish with
        | error e =>
          simp [Visit.alone, Request.program, Desk.pay, settle, announce, Program.run,
            Outcomes.answer, Store.load_of_find? h, he, hs, hcharge, hm, hu,
            hpublish, announced, refuse]
        | ok _ =>
          simp [Visit.alone, Request.program, Desk.pay, settle, announce, Program.run,
            Outcomes.answer, Store.load_of_find? h, he, hs, hcharge, hm, hu,
            hpublish, announced]
    · have he : v.ensureCanBecome .paid = .error ⟨v.status, .paid⟩ := by
        simp [Order.ensureCanBecome, mt Status.canBecome_paid_iff.mp hs]
      simp [Visit.alone, Request.program, Desk.pay, Program.run, Outcomes.answer,
        Store.load_of_find? h, he, hs, refuse, DeskError.ofOrder]

theorem alone_place (user : String) (ids : List String) :
    Visit.alone ⟨.place user ids, draw, o⟩ now s =
      match quoted ids o.parts with
      | .error e => (some (.order (.error e)), s)
      | .ok total =>
        match s.create (Order.placed draw.id now user ids total) o.draws with
        | none => (none, s)
        | some (created, t) => (some (.order (.ok created)), t) := by
  cases hids : ids.isEmpty with
  | true => simp [Visit.alone, Request.program, Desk.place, quoted, hids, refuse]
  | false =>
    cases hparts : o.parts with
    | error e =>
      simp [Visit.alone, Request.program, Desk.place, quoted, hids, Program.run, Outcomes.answer,
        hparts, refuse]
    | ok parts =>
      cases hprice : price ids.length parts with
      | error e =>
        simp [Visit.alone, Request.program, Desk.place, quoted, hids, Program.run,
          Outcomes.answer, hparts, hprice, refuse]
      | ok total =>
        cases hcreate : s.create (Order.placed draw.id now user ids total) o.draws with
        | none =>
          simp [Visit.alone, Request.program, Desk.place, placePriced, quoted, hids, Program.run,
            Outcomes.answer, hparts, hprice, hcreate]
        | some created =>
          simp [Visit.alone, Request.program, Desk.place, placePriced, quoted, hids, Program.run,
            Outcomes.answer, hparts, hprice, hcreate]

end Alone

/-! ## Some visits -/

/-- A visit that places an order. -/
def placer : Visit :=
  ⟨.place "u-1" ["p-1"], ⟨.nil, .epoch⟩, ⟨.ok [⟨"p-1", "Sail", 1⟩], .ok "t-0", .ok (), []⟩⟩

/-- A visit that pays for it. -/
def payer : Visit := ⟨.pay .nil .card, ⟨.nil, .epoch⟩, ⟨.ok [], .ok "t-1", .ok (), []⟩⟩

/-- Another visit that pays for it. -/
def rival : Visit := ⟨.pay .nil .sbp, ⟨.nil, .epoch⟩, ⟨.ok [], .ok "t-2", .ok (), []⟩⟩

/-- A visit that cancels it. -/
def canceller : Visit := ⟨.cancel .nil, ⟨.nil, .epoch⟩, ⟨.ok [], .ok "t-3", .ok (), []⟩⟩

/-- A visit with the news that it was assembled. -/
def assembler : Visit := ⟨.assemble .nil, ⟨.nil, .epoch⟩, ⟨.ok [], .ok "t-4", .ok (), []⟩⟩

end Desk

end OrderDesk
