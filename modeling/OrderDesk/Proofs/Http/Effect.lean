import OrderDesk.Http.Service
import OrderDesk.Proofs.Desk.Ledger
import OrderDesk.Proofs.Http.Shown
import OrderDesk.Proofs.Traffic.Reaches

/-!
# What an answer over HTTP says of its effect

A request that is alone with a ledger is answered, or has no answer while every id drawn for a new
order is in use. Whatever the request holds, there are only a few things it can come to, and the
status of its answer tells which one it was.

## Main definitions

* `Names`: the order that a path names
* `Ledger.Turns`, `Ledger.Gains`: one order became another one, or was added
* `Effect`: all that a routed request can come to

## Main results

* `effect_of_handle`: a routed request comes to one of its effects
* `status_truthful`: the status of an answer tells what happened
* `infinite_total_unshown`: a total that is not finite cannot be told
-/

namespace OrderDesk

namespace Desk.Ledger

/-- **One order became another one** in the store, and no other order changed. -/
def Turns (before after : Ledger) (v w : Order) : Prop :=
  before.store.find? v.id = some v ∧
    ∀ id, after.store.find? id = if id = v.id then some w else before.store.find? id

/-- **One order was added** to the store under an id that was free, and no other order changed. -/
def Gains (before after : Ledger) (w : Order) : Prop :=
  before.store.find? w.id = none ∧
    ∀ id, after.store.find? id = if id = w.id then some w else before.store.find? id

theorem turns_moved {l : Ledger} {id : Uuid} {v : Order} (found : l.store.find? id = some v)
    (status : Status) (transaction : Option String) (method : Option Method) (now : Instant) :
    Turns l (l.moved id status transaction method now) v
      (Store.revised v status transaction method now) := by
  obtain rfl := Store.id_of_find? found
  refine ⟨found, fun id => ?_⟩
  rw [moved, Store.find?_revise]
  by_cases h : id = v.id
  · simp [h, found]
  · simp [h]

theorem gains_of_create {l : Ledger} {o created : Order} {draws : List Uuid} {store : Store}
    (h : l.store.create o draws = some (created, store)) (total : Float) :
    Gains l ((l.entered store).earning total) created := by
  obtain ⟨hfree, -, hfind⟩ := Store.create_eq_some h
  exact ⟨hfree, fun id => by simp [entered, earning, hfind, eq_comm]⟩

end Desk.Ledger

namespace Http

open Desk (Draw Ledger Outcomes announced charged published quoted)
open Json (Shows readString readDouble)
open Store (revised)

/-- **The order that a path names.** -/
def Names (segment : List Char) (id : Uuid) : Prop :=
  ∃ text, decodeSegment? segment = some text ∧ Uuid.parse? text = some id

/-- The event that tells of a payment. -/
def tellsOf (draw : Draw) (v : Order) (method : Method) (transaction : String) : PaidEvent :=
  ⟨draw.id, v.id, v.user, method, transaction⟩

section Effects

variable {o : Outcomes} {draw : Draw} {now : Instant} {l : Ledger} {r : Request}

/-- **All that a routed request can come to**: the answer, and the ledger after it. -/
inductive Effect (o : Outcomes) (draw : Draw) (now : Instant) (l : Ledger) (r : Request) :
    Route → Response → Ledger → Prop
  /-- The fault is with the client, and nothing happened. -/
  | turnedAway {route : Route} {response : Response}
    (client : 400 ≤ response.status ∧ response.status < 500) :
    Effect o draw now l r route response l
  /-- Nobody asked for an order. -/
  | passive {route : Route} {response : Response} (aside : route = .health ∨ route = .counters)
    (fine : response.status = 200) : Effect o draw now l r route response l
  | looked {segment : List Char} {id : Uuid} {v : Order} (names : Names segment id)
    (found : l.store.find? id = some v) :
    Effect o draw now l r (.order segment) (Reply.json (OrderView.ofOrder v).toJson).respond l
  /-- The inventory gave no prices that an order can be made of. -/
  | unpriced {response : Response} (broken : response.status = 500) :
    Effect o draw now l r .orders response l
  | placed {body : PlaceRequest} {total : Float} {created : Order} {store : Store}
    (asked : readBody PlaceRequest.shape r = .ok body) (user : Text.allBlank body.user = false)
    (parts : body.parts ≠ [])
    (stored : l.store.create (Order.placed draw.id draw.now body.user body.parts total) o.draws =
      some (created, store)) :
    Effect o draw now l r .orders
      (Reply.json (PlaceReply.toJson ⟨created.id, created.total⟩)).respond
      ((l.entered store).earning created.total)
  | declined {segment : List Char} {id : Uuid} {v : Order} {method : Method} {e : ClientError}
    (names : Names segment id) (found : l.store.find? id = some v) (charge : o.charge = .error e) :
    Effect o draw now l r (.pay segment) (Refusal.desk .paymentFailed).respond
      (l.noting ⟨.charge id v.user method, .error e⟩)
  /-- The payment landed; it was announced, or that was tried in vain. -/
  | paid {segment : List Char} {id : Uuid} {v : Order} {method : Method} {transaction : String}
    (names : Names segment id) (found : l.store.find? id = some v)
    (pending : v.status = .pendingPayment) (charge : o.charge = .ok transaction) :
    Effect o draw now l r (.pay segment)
      (answer (fun t => .json (PayReply.toJson ⟨t⟩)) (announced o.publish transaction)).respond
      (((l.moved id .paid (some transaction) (some method) now).noting
        (charged id v.user method transaction)).noting
          ⟨.publish (tellsOf draw v method transaction), o.publish⟩)
  | cancelled {segment : List Char} {id : Uuid} {v : Order} (names : Names segment id)
    (found : l.store.find? id = some v) (pending : v.status = .pendingPayment) :
    Effect o draw now l r (.cancel segment) Reply.noContent.respond
      (l.moved id .cancelled v.transaction v.method now)

/-- **A request that is refused** as the client's fault had no effect. -/
theorem Effect.of_refused {route : Route} {reason : Refusal} {response : Response} {after : Ledger}
    (h : (some reason.respond, l) = (some response, after))
    (client : 400 ≤ reason.status ∧ reason.status < 500) :
    Effect o draw now l r route response after := by
  obtain ⟨rfl, rfl⟩ := Desk.answered_inj h
  exact .turnedAway client

/-- What a handler's result is for the client. -/
theorem run_respond {α : Type} (write : α → Reply) (p : Action α) :
    ((p.map (answer write)).map Reply.respond).run (Ledger.answer o now) l =
      ((p.run (Ledger.answer o now) l).1.map fun result => (answer write result).respond,
        (p.run (Ledger.answer o now) l).2) := by
  rw [Program.run_map, Program.run_map]
  simp [Function.comp_def]

/-- A request without a price is refused as the client's fault, or as one of the desk. -/
theorem status_of_unquoted {ids : List String} {parts : Except ClientError (List Part)}
    {e : DeskError} (h : quoted ids parts = .error e) :
    (Refusal.desk e).status = 400 ∨ (Refusal.desk e).status = 500 := by
  unfold quoted at h
  split at h
  · cases h
    exact .inl rfl
  · split at h
    · cases h
      exact .inr rfl
    · unfold Desk.price at h
      split at h
      · cases h
        exact .inl rfl
      · split at h <;> cases h
        exact .inr rfl

theorem ne_nil_of_quoted {ids : List String} {parts : Except ClientError (List Part)}
    {total : Float} (h : quoted ids parts = .ok total) : ids ≠ [] := by
  rintro rfl
  cases h

/-- A new order is placed, or refused without an effect. -/
theorem effect_of_place {response : Response} {after : Ledger}
    (h : ((place r draw).map Reply.respond).run (Ledger.answer o now) l = (some response, after)) :
    Effect o draw now l r .orders response after := by
  unfold place at h
  cases hbody : readBody PlaceRequest.shape r with
  | error e =>
    rw [hbody] at h
    exact .of_refused h (by simp [Refusal.status])
  | ok body =>
    simp only [hbody] at h
    by_cases hblank : Text.allBlank body.user = true
    · rw [if_pos hblank] at h
      exact .of_refused h (by simp [Refusal.status])
    · rw [if_neg hblank, run_respond, Desk.run_place] at h
      cases hquoted : quoted body.parts o.parts with
      | error e =>
        simp only [hquoted] at h
        obtain hs | hs := status_of_unquoted hquoted
        · exact .of_refused h (by simp [hs])
        · obtain ⟨rfl, rfl⟩ := Desk.answered_inj h
          exact .unpriced hs
      | ok total =>
        simp only [hquoted] at h
        split at h
        · cases h
        · rename_i created store hcreate
          split at h
          · obtain ⟨rfl, rfl⟩ := Desk.answered_inj h
            exact .placed hbody (by simpa using hblank) (ne_nil_of_quoted hquoted) hcreate
          · cases h

/-- A handler of a path's id is reached with an id, or the client is turned away. -/
theorem effect_of_withId {route : Route} {segment : List Char} {handler : String → Handler Reply}
    {response : Response} {after : Ledger}
    (h : (withId segment handler).run (Ledger.answer o now) l = (some response, after))
    (handled : ∀ text, decodeSegment? segment = some text →
      ((handler text).map Reply.respond).run (Ledger.answer o now) l = (some response, after) →
      Effect o draw now l r route response after) : Effect o draw now l r route response after := by
  unfold withId at h
  cases hsegment : decodeSegment? segment with
  | none =>
    rw [hsegment] at h
    obtain ⟨rfl, rfl⟩ := Desk.answered_inj h
    exact .turnedAway ⟨by decide, by decide⟩
  | some text =>
    rw [hsegment] at h
    exact handled text hsegment h

/-- The id of a path is read, or the client is turned away. -/
theorem parseId_cases (text : String) :
    (∃ id, Uuid.parse? text = some id ∧ parseId text = .ok id) ∨
      ∃ reason, reason.status = 400 ∧ parseId text = .error reason := by
  unfold parseId
  cases Uuid.parse? text with
  | some id => exact .inl ⟨id, rfl, rfl⟩
  | none => exact .inr ⟨_, rfl, rfl⟩

/-- An order is shown as it is stored, or nothing happened. -/
theorem effect_of_get {segment : List Char} {response : Response} {after : Ledger}
    (h : (withId segment get).run (Ledger.answer o now) l = (some response, after)) :
    Effect o draw now l r (.order segment) response after := by
  refine effect_of_withId h fun text hsegment h => ?_
  unfold get at h
  obtain ⟨id, hid, hparse⟩ | ⟨reason, hs, hparse⟩ := parseId_cases text <;> simp only [hparse] at h
  · rw [run_respond, Desk.run_get] at h
    cases hfind : l.store.find? id with
    | none =>
      simp only [hfind] at h
      exact .of_refused h (by simp [Refusal.status])
    | some v =>
      simp only [hfind] at h
      obtain ⟨rfl, rfl⟩ := Desk.answered_inj h
      exact .looked ⟨text, hsegment, hid⟩ hfind
  · exact .of_refused h (by simp [hs])

/-- An order is cancelled, or nothing happened. -/
theorem effect_of_cancel {segment : List Char} {response : Response} {after : Ledger}
    (h : (withId segment fun text => cancel text draw).run (Ledger.answer o now) l =
      (some response, after)) :
    Effect o draw now l r (.cancel segment) response after := by
  refine effect_of_withId h fun text hsegment h => ?_
  unfold cancel at h
  obtain ⟨id, hid, hparse⟩ | ⟨reason, hs, hparse⟩ := parseId_cases text <;> simp only [hparse] at h
  · rw [run_respond, Desk.run_cancel] at h
    cases hfind : l.store.find? id with
    | none =>
      simp only [hfind] at h
      exact .of_refused h (by simp [Refusal.status])
    | some v =>
      simp only [hfind] at h
      split at h
      · obtain ⟨rfl, rfl⟩ := Desk.answered_inj h
        exact .cancelled ⟨text, hsegment, hid⟩ hfind ‹_›
      · exact .of_refused h (by simp [Refusal.status])
  · exact .of_refused h (by simp [hs])

/-- An order is paid, or its payment is declined, or nothing happened. -/
theorem effect_of_pay {segment : List Char} {response : Response} {after : Ledger}
    (h : (withId segment fun text => pay text r draw).run (Ledger.answer o now) l =
      (some response, after)) :
    Effect o draw now l r (.pay segment) response after := by
  refine effect_of_withId h fun text hsegment h => ?_
  unfold pay at h
  obtain ⟨id, hid, hparse⟩ | ⟨reason, hs, hparse⟩ := parseId_cases text <;> simp only [hparse] at h
  · split at h
    · exact .of_refused h (by simp [Refusal.status])
    · split at h
      · exact .of_refused h (by simp [Refusal.status])
      · rw [run_respond, Desk.run_pay] at h
        cases hfind : l.store.find? id with
        | none =>
          simp only [hfind] at h
          exact .of_refused h (by simp [Refusal.status])
        | some v =>
          obtain rfl := Store.id_of_find? hfind
          simp only [hfind] at h
          split at h
          · rename_i pending
            cases hcharge : o.charge with
            | error e =>
              simp only [hcharge] at h
              obtain ⟨rfl, rfl⟩ := Desk.answered_inj h
              exact .declined ⟨text, hsegment, hid⟩ hfind hcharge
            | ok transaction =>
              simp only [hcharge] at h
              obtain ⟨rfl, rfl⟩ := Desk.answered_inj h
              exact .paid ⟨text, hsegment, hid⟩ hfind pending hcharge
          · exact .of_refused h (by simp [Refusal.status])
  · exact .of_refused h (by simp [hs])

/-- **A routed request comes to one of its effects.** -/
theorem effect_of_handle {shown : Option Counters} {route : Route} {response : Response}
    {after : Ledger}
    (h : (handle shown draw r route).run (Ledger.answer o now) l = (some response, after)) :
    Effect o draw now l r route response after := by
  cases route with
  | health =>
    obtain ⟨rfl, rfl⟩ := Desk.answered_inj h
    exact .passive (.inl rfl) rfl
  | counters =>
    obtain ⟨rfl, rfl⟩ := Desk.answered_inj h
    exact .passive (.inr rfl) rfl
  | orders => exact effect_of_place h
  | order segment => exact effect_of_get h
  | pay segment => exact effect_of_pay h
  | cancel segment => exact effect_of_cancel h

@[simp] theorem status_shared (response : Response) : (shared response).status = response.status :=
  rfl

@[simp] theorem status_withoutBody (method : String) (response : Response) :
    (withoutBody method response).status = response.status := by
  unfold withoutBody
  split <;> rfl

theorem status_preflight (route : Option Route) : (shared (preflight route)).status = 200 := by
  cases route <;> rfl

@[simp] theorem body_shared (response : Response) : (shared response).body = response.body := rfl

theorem body_withoutBody {method : String} (h : method ≠ "HEAD") (response : Response) :
    (withoutBody method response).body = response.body := by
  simp [withoutBody, h]

/-- **Any request** is answered at once and has no effect, or comes to an effect of its route. -/
theorem effect_of_serve {shown : Option Counters} {response : Response} {after : Ledger}
    (h : (serve shown draw r).run (Ledger.answer o now) l = (some response, after)) :
    (after = l ∧ (r.method = "OPTIONS" ∧ response.status = 200 ∨
      400 ≤ response.status ∧ response.status < 500)) ∨
      ∃ route inner, Route.ofTarget? r.target = some route ∧ route.serves r.method = true ∧
        response = shared (withoutBody r.method inner) ∧
        Effect o draw now l r route inner after := by
  unfold serve at h
  by_cases hmethod : r.method = "OPTIONS"
  · simp only [hmethod, beq_self_eq_true, if_true] at h
    obtain ⟨rfl, rfl⟩ := Desk.answered_inj h
    exact .inl ⟨rfl, .inl ⟨hmethod, status_preflight _⟩⟩
  · rw [if_neg (by simpa using hmethod)] at h
    cases hroute : Route.ofTarget? r.target with
    | none =>
      simp only [hroute] at h
      obtain ⟨rfl, rfl⟩ := Desk.answered_inj h
      exact .inl ⟨rfl, .inr ⟨by decide, by decide⟩⟩
    | some route =>
      simp only [hroute] at h
      split at h
      · rename_i hserves
        rw [Program.run_map] at h
        obtain ⟨hresponse, rfl⟩ := Prod.mk.inj h
        obtain ⟨inner, hinner, rfl⟩ := Option.map_eq_some_iff.mp hresponse
        exact .inr ⟨route, inner, rfl, hserves, rfl, effect_of_handle (Prod.ext hinner rfl)⟩
      · obtain ⟨rfl, rfl⟩ := Desk.answered_inj h
        exact .inl ⟨rfl, .inr ⟨by simp, by simp⟩⟩

/-- A request of a route, not turned away, comes to an effect of the route. -/
theorem effect_of_routed {shown : Option Counters} {route : Route} {response : Response}
    {after : Ledger}
    (h : (serve shown draw r).run (Ledger.answer o now) l = (some response, after))
    (routed : Route.ofTarget? r.target = some route)
    (method : r.method = "OPTIONS" → response.status ≠ 200)
    (status : response.status < 400 ∨ 500 ≤ response.status) :
    ∃ inner, response = shared (withoutBody r.method inner) ∧
      Effect o draw now l r route inner after := by
  obtain ⟨-, ⟨hmethod, hfine⟩ | hclient⟩ | ⟨route', inner, hroute, -, hresponse, effect⟩ :=
    effect_of_serve h
  · exact absurd hfine (method hmethod)
  · omega
  · obtain rfl : route' = route := Option.some.inj (hroute.symm.trans routed)
    exact ⟨inner, hresponse, effect⟩

/-! ## What the status of an effect tells -/

variable {route : Route} {response : Response} {segment : List Char} {after : Ledger}

@[simp] theorem status_respond_json (body : Json.Value) :
    (Reply.json body).respond.status = 200 := rfl

@[simp] theorem status_respond_noContent : Reply.noContent.respond.status = 204 := rfl

@[simp] theorem status_respond_refusal (reason : Refusal) :
    reason.respond.status = reason.status := rfl

/-- A payment that landed is answered with its transaction, or with a failure of the desk. -/
theorem status_paid (publish : Except PublishError Unit) (transaction : String) :
    (answer (fun t => .json (PayReply.toJson ⟨t⟩)) (announced publish transaction)).respond.status =
      match publish with
      | .ok _ => 200
      | .error _ => 500 := by
  cases publish <;> rfl

/-- **The client's fault** has no effect. -/
theorem Effect.eq_of_client (h : Effect o draw now l r route response after)
    (lower : 400 ≤ response.status) (upper : response.status < 500) : after = l := by
  cases h with
  | turnedAway => rfl
  | passive => rfl
  | looked => rfl
  | unpriced => rfl
  | placed => simp at lower
  | declined => simp [Refusal.status] at upper
  | paid =>
    rw [status_paid] at lower upper
    cases hpublish : o.publish <;> simp [hpublish] at lower upper
  | cancelled => simp at lower

/-- **A failure of the payment service** leaves one charge that was tried. -/
theorem Effect.of_badGateway (h : Effect o draw now l r route response after)
    (status : response.status = 502) :
    ∃ id user method e, after = l.noting ⟨.charge id user method, .error e⟩ := by
  cases h with
  | turnedAway client => omega
  | passive _ fine => omega
  | looked => simp at status
  | unpriced broken => omega
  | placed => simp at status
  | declined => exact ⟨_, _, _, _, rfl⟩
  | paid =>
    rw [status_paid] at status
    split at status <;> omega
  | cancelled => simp at status

/-- **A failure of the desk after a payment**: the order is paid, and nobody was told. -/
theorem Effect.of_unannounced (h : Effect o draw now l r (.pay segment) response after)
    (status : response.status = 500) :
    ∃ v method transaction e, Names segment v.id ∧ v.status = .pendingPayment ∧
      o.charge = .ok transaction ∧
      l.Turns after v (revised v .paid (some transaction) (some method) now) ∧
      after.outside = l.outside ++ [charged v.id v.user method transaction,
        ⟨.publish (tellsOf draw v method transaction), .error e⟩] := by
  cases h with
  | turnedAway client => omega
  | passive _ fine => omega
  | declined => simp [Refusal.status] at status
  | paid names found pending charge =>
    obtain rfl := Store.id_of_find? found
    rw [status_paid] at status
    cases hpublish : o.publish with
    | ok _ => simp [hpublish] at status
    | error e =>
      exact ⟨_, _, _, e, names, pending, charge, Ledger.turns_moved found _ _ _ _,
        by simp [Ledger.noting, Ledger.moved]⟩

/-- **A payment that is answered** was charged, stored and announced. -/
theorem Effect.of_paid (h : Effect o draw now l r (.pay segment) response after)
    (status : response.status = 200) :
    ∃ v method transaction, Names segment v.id ∧
      Shows response.body "transaction_uuid" readString transaction ∧
      v.status = .pendingPayment ∧
      l.Turns after v (revised v .paid (some transaction) (some method) now) ∧
      after.outside = l.outside ++ [charged v.id v.user method transaction,
        published (tellsOf draw v method transaction)] := by
  cases h with
  | turnedAway client => omega
  | passive aside => simp at aside
  | declined => simp [Refusal.status] at status
  | paid names found pending =>
    obtain rfl := Store.id_of_find? found
    rw [status_paid] at status
    cases hpublish : o.publish with
    | ok _ =>
      exact ⟨_, _, _, names, shows_payReply _, pending, Ledger.turns_moved found _ _ _ _,
        by simp [Ledger.noting, Ledger.moved, published]⟩
    | error e => simp [hpublish] at status

/-- **A cancellation that is answered** turned the order. -/
theorem Effect.of_cancelled (h : Effect o draw now l r (.cancel segment) response after)
    (status : response.status = 204) :
    ∃ v, Names segment v.id ∧ v.status = .pendingPayment ∧
      l.Turns after v (revised v .cancelled v.transaction v.method now) ∧
      after.outside = l.outside := by
  cases h with
  | turnedAway client => omega
  | passive _ fine => omega
  | cancelled names found pending =>
    obtain rfl := Store.id_of_find? found
    exact ⟨_, names, pending, Ledger.turns_moved found _ _ _ _, rfl⟩

/-- **A new order that is answered** was added. -/
theorem Effect.of_placed (h : Effect o draw now l r .orders response after)
    (status : response.status = 200) :
    ∃ created, ShowsPlaced response.body created ∧
      readBody PlaceRequest.shape r = .ok ⟨created.user, created.parts⟩ ∧
      created.status = .pendingPayment ∧ Text.allBlank created.user = false ∧
      created.parts ≠ [] ∧ l.Gains after created ∧ after.outside = l.outside := by
  cases h with
  | turnedAway client => omega
  | passive aside => simp at aside
  | unpriced broken => omega
  | placed asked user parts stored =>
    have hgains := Ledger.gains_of_create stored
    obtain ⟨-, hcreated, -⟩ := Store.create_eq_some stored
    rw [hcreated] at hgains ⊢
    exact ⟨_, showsPlaced_render _, asked, rfl, user, parts, hgains _, rfl⟩

/-- **An order that is looked at** is shown as it is stored. -/
theorem Effect.of_looked (h : Effect o draw now l r (.order segment) response after)
    (status : response.status = 200) :
    ∃ v, Names segment v.id ∧ l.store.find? v.id = some v ∧ ShowsOrder response.body v ∧
      after = l := by
  cases h with
  | turnedAway client => omega
  | passive aside => simp at aside
  | looked names found =>
    obtain rfl := Store.id_of_find? found
    exact ⟨_, names, found, showsOrder_render _, rfl⟩

/-- **A failure of the desk about a new order** has no effect. -/
theorem Effect.eq_of_unpriced (h : Effect o draw now l r .orders response after)
    (status : response.status = 500) : after = l := by
  cases h with
  | turnedAway => rfl
  | passive => rfl
  | unpriced => rfl
  | placed => simp at status

end Effects

/-- **The status of an answer tells what happened.** Of any request that is answered: one that is
turned away had no effect; after a failure of the payment service there is one charge that was tried
and nothing else; a failure of the desk after a payment means that the order is paid by the
transaction that was charged, and the only attempt to announce it failed; a failure of the desk
about a new order had no effect. And what succeeded happened, once: the payment that is answered was
charged, stored and announced, and the body shows its transaction; a cancellation turned the order
and asked nobody outside; a new order was added, and the body shows its id and its total; an order
that is looked at is shown as it is stored. A total that is not finite is shown as nothing. -/
theorem status_truthful (shown : Option Counters) (draw : Draw) (o : Outcomes) (now : Instant)
    (l : Ledger) (r : Request) {response : Response} {after : Ledger}
    (answered : (serve shown draw r).run (Ledger.answer o now) l = (some response, after)) :
    (400 ≤ response.status → response.status < 500 → after = l) ∧
    (response.status = 502 →
      ∃ id user method e, after = l.noting ⟨.charge id user method, .error e⟩) ∧
    (∀ segment, Route.ofTarget? r.target = some (.pay segment) → r.method = "POST" →
      response.status = 500 → ∃ v method transaction e, Names segment v.id ∧
        v.status = .pendingPayment ∧ o.charge = .ok transaction ∧
        l.Turns after v (revised v .paid (some transaction) (some method) now) ∧
        after.outside = l.outside ++ [charged v.id v.user method transaction,
          ⟨.publish (tellsOf draw v method transaction), .error e⟩]) ∧
    (Route.ofTarget? r.target = some .orders → r.method = "POST" → response.status = 500 →
      after = l) ∧
    (∀ segment, Route.ofTarget? r.target = some (.pay segment) → r.method = "POST" →
      response.status = 200 → ∃ v method transaction, Names segment v.id ∧
        Shows response.body "transaction_uuid" readString transaction ∧
        v.status = .pendingPayment ∧
        l.Turns after v (revised v .paid (some transaction) (some method) now) ∧
        after.outside = l.outside ++ [charged v.id v.user method transaction,
          published (tellsOf draw v method transaction)]) ∧
    (∀ segment, Route.ofTarget? r.target = some (.cancel segment) → response.status = 204 →
      ∃ v, Names segment v.id ∧ v.status = .pendingPayment ∧
        l.Turns after v (revised v .cancelled v.transaction v.method now) ∧
        after.outside = l.outside) ∧
    (Route.ofTarget? r.target = some .orders → r.method = "POST" → response.status = 200 →
      ∃ created, ShowsPlaced response.body created ∧
        readBody PlaceRequest.shape r = .ok ⟨created.user, created.parts⟩ ∧
        created.status = .pendingPayment ∧ Text.allBlank created.user = false ∧
        created.parts ≠ [] ∧ l.Gains after created ∧ after.outside = l.outside) ∧
    (∀ segment, Route.ofTarget? r.target = some (.order segment) → r.method = "GET" →
      response.status = 200 → ∃ v, Names segment v.id ∧ l.store.find? v.id = some v ∧
        ShowsOrder response.body v ∧ after = l) := by
  refine ⟨?_, ?_, ?_, ?_, ?_, ?_, ?_, ?_⟩
  · intro lower upper
    obtain ⟨hafter, -⟩ | ⟨route, inner, -, -, rfl, effect⟩ := effect_of_serve answered
    · exact hafter
    · exact effect.eq_of_client (by simpa using lower) (by simpa using upper)
  · intro status
    obtain ⟨-, ⟨-, fine⟩ | client⟩ | ⟨route, inner, -, -, rfl, effect⟩ := effect_of_serve answered
    · omega
    · omega
    · exact effect.of_badGateway (by simpa using status)
  · intro segment routed method status
    obtain ⟨inner, rfl, effect⟩ :=
      effect_of_routed answered routed (by simp [method]) (.inr (status ▸ Nat.le_refl 500))
    exact effect.of_unannounced (by simpa using status)
  · intro routed method status
    obtain ⟨inner, rfl, effect⟩ :=
      effect_of_routed answered routed (by simp [method]) (.inr (status ▸ Nat.le_refl 500))
    exact effect.eq_of_unpriced (by simpa using status)
  · intro segment routed method status
    obtain ⟨inner, rfl, effect⟩ :=
      effect_of_routed answered routed (by simp [method]) (.inl (by omega))
    rw [body_shared, body_withoutBody (by simp [method])]
    exact effect.of_paid (by simpa using status)
  · intro segment routed status
    obtain ⟨inner, rfl, effect⟩ := effect_of_routed answered routed
      (fun _ => by omega) (.inl (by omega))
    exact effect.of_cancelled (by simpa using status)
  · intro routed method status
    obtain ⟨inner, rfl, effect⟩ :=
      effect_of_routed answered routed (by simp [method]) (.inl (by omega))
    rw [body_shared, body_withoutBody (by simp [method])]
    exact effect.of_placed (by simpa using status)
  · intro segment routed method status
    obtain ⟨inner, rfl, effect⟩ :=
      effect_of_routed answered routed (by simp [method]) (.inl (by omega))
    rw [body_shared, body_withoutBody (by simp [method])]
    exact effect.of_looked (by simpa using status)

/-- A ledger over an order that waits for its payment. -/
def pendingLedger : Ledger :=
  ⟨⟨[⟨.nil, "u-1", ["p-1"], 1, .pendingPayment, none, none, .epoch, .epoch⟩], by simp⟩, .zero, []⟩

/-- A request to pay it by card. -/
def payRequest : Request where
  method := "POST"
  target := "/api/v1/orders/00000000-0000-0000-0000-000000000000/pay"
  headers := [("content-type", "application/json")]
  body := "\x7b\"payment_method\":\"CARD\"\x7d".toUTF8.toList

theorem status_truthful_paid :
    ∃ response after,
      (serve none ⟨.nil, .epoch⟩ payRequest).run (Ledger.answer Desk.payer.outcomes .epoch)
        pendingLedger = (some response, after) ∧
      response.status = 200 ∧ ∃ v method transaction,
        Shows response.body "transaction_uuid" readString transaction ∧
        pendingLedger.Turns after v (revised v .paid (some transaction) (some method) .epoch) ∧
        after.outside = [charged v.id v.user method transaction,
          published (tellsOf ⟨.nil, .epoch⟩ v method transaction)] := by
  have hfine : ((serve none ⟨.nil, .epoch⟩ payRequest).run
      (Ledger.answer Desk.payer.outcomes .epoch) pendingLedger).1.map (·.status) = some 200 := by
    decide +kernel
  have hroute : Route.ofTarget? payRequest.target =
      some (.pay "00000000-0000-0000-0000-000000000000".toList) := by
    decide +kernel
  generalize answered : (serve none ⟨.nil, .epoch⟩ payRequest).run
    (Ledger.answer Desk.payer.outcomes .epoch) pendingLedger = result at hfine
  obtain ⟨answer, after⟩ := result
  obtain ⟨response, rfl, hstatus⟩ := Option.map_eq_some_iff.mp hfine
  obtain ⟨v, method, transaction, -, hbody, -, hturns, houtside⟩ :=
    (status_truthful none ⟨.nil, .epoch⟩ Desk.payer.outcomes .epoch pendingLedger payRequest
      answered).2.2.2.2.1 _ hroute rfl hstatus
  exact ⟨response, after, rfl, hstatus, v, method, transaction, hbody, hturns, houtside⟩

/-- A request for an order of one part. -/
def placeRequest : Request where
  method := "POST"
  target := "/api/v1/orders"
  headers := [("content-type", "application/json")]
  body := "\x7b\"user_uuid\":\"u-1\",\"part_uuids\":[\"p-1\"]\x7d".toUTF8.toList

/-- The inventory lists the part at a price without end, and all else goes well. -/
def endlessOutcomes : Outcomes := ⟨.ok [⟨"p-1", "", 1 / 0⟩], .ok "", .ok (), []⟩

/-- What comes of a request over a ledger. -/
def comesTo (l : Ledger) (r : Request) : Option Response × Ledger :=
  (serve none default r).run (Ledger.answer endlessOutcomes default) l

/-- The status of an answer, and what is read of it as a total. -/
def statusAndTotal (response : Response) : Nat × Option Float :=
  (response.status,
    ((Json.Shape.only "total_price" readDouble).readBytes
      (Text.Utf8.ofString response.body)).toOption)

theorem unshown_of_statusAndTotal {response : Response}
    (h : statusAndTotal response = (200, none)) :
    response.status = 200 ∧ ∀ total, ¬ Shows response.body "total_price" readDouble total := by
  obtain ⟨hstatus, hnone⟩ := Prod.mk.inj h
  refine ⟨hstatus, fun total shows => ?_⟩
  rw [shows] at hnone
  cases hnone

/-- **A total that is not finite is not shown**: the order is stored with it and answered as one
that was added, and yet nobody can read its total in the body of the answer. -/
theorem infinite_total_unshown :
    ∃ response after created,
      comesTo ⟨.empty, .zero, []⟩ placeRequest = (some response, after) ∧ response.status = 200 ∧
      after.store.orders = [created] ∧ created.total.isFinite = false ∧
      ∀ total, ¬ Shows response.body "total_price" readDouble total := by
  have hanswered : (comesTo ⟨.empty, .zero, []⟩ placeRequest).1.map statusAndTotal =
      some (200, none) := by
    decide +kernel
  have hstored : (comesTo ⟨.empty, .zero, []⟩ placeRequest).2.store.orders.map (·.total.isFinite) =
      [false] := by
    decide +kernel
  generalize comesTo ⟨.empty, .zero, []⟩ placeRequest = result at hanswered hstored
  obtain ⟨answer, after⟩ := result
  obtain ⟨response, rfl, hresponse⟩ := Option.map_eq_some_iff.mp hanswered
  obtain ⟨created, hcreated, hinfinite⟩ := List.map_eq_singleton_iff.mp hstored
  obtain ⟨hstatus, hunshown⟩ := unshown_of_statusAndTotal hresponse
  exact ⟨response, after, created, rfl, hstatus, hcreated, hinfinite, hunshown⟩

end Http

end OrderDesk
