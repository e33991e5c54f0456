import OrderDesk.Desk.Call

/-!
# The order desk

The operations on orders. Each loads a fresh copy of the order, and every write is conditional on
the status that was loaded. What can be refused is refused before anything happens outside.

## Main definitions

* `Desk.place`, `Desk.get`, `Desk.pay`, `Desk.cancel`, `Desk.assemble`
-/

namespace OrderDesk.Desk

/-- **What an operation draws**: a fresh id and the time. -/
structure Draw where
  id : Uuid
  now : Instant
  deriving DecidableEq, Inhabited

/-- An operation that ends without a result. -/
def refuse {α : Type} (e : DeskError) : Action α := .done (.error e)

/-- **The sum of prices**, from the left. The sum of no prices is the neutral negative zero. -/
def sum (parts : List Part) : Float :=
  parts.foldl (fun total p => total + p.price) (-0.0)

/-- The total of the parts that answer a request for `requested` of them, or why there is none. -/
def price (requested : Nat) (parts : List Part) : Except DeskError Float :=
  if parts.isEmpty ∨ parts.length ≠ requested then
    .error (.partsNotFound requested parts.length)
  else match parts.find? fun p => decide (p.price < 0) with
    | some p => .error (.internal ("negative price for part " ++ p.id))
    | none => .ok (sum parts)

/-- The new order is stored and counted, and then its total. -/
def placePriced (user : String) (ids : List String) (draw : Draw) (total : Float) :
    Action Order :=
  .ask (.create (Order.placed draw.id draw.now user ids total)) fun
    | .error e => refuse (.ofStore e)
    | .ok created =>
      .ask (.count .created) fun _ =>
        .ask (.count (.earned created.total)) fun _ => .done (.ok created)

/-- **An order is placed**: its parts are priced and it is stored, waiting for its payment. -/
def place (user : String) (ids : List String) (draw : Draw) : Action Order :=
  if ids.isEmpty then refuse (.badRequest "order must contain at least one part")
  else .ask (.listParts ⟨ids⟩) fun
    | .error e => refuse (.internal ("inventory lookup failed: " ++ e.message))
    | .ok parts =>
      match price ids.length parts with
      | .error e => refuse e
      | .ok total => placePriced user ids draw total

/-- **An order is looked at.** -/
def get (id : Uuid) : Action Order :=
  .ask (.load id) fun
    | .error e => refuse (.ofStore e)
    | .ok order => .done (.ok order)

/-- The payment is announced; the order stays paid if that fails. -/
def announce (order : Order) (method : Method) (transaction : String) (draw : Draw) :
    Action String :=
  .ask (.publish ⟨draw.id, order.id, order.user, method, transaction⟩) fun
    | .error e => refuse (.internal ("failed to publish order paid event: " ++ e.message))
    | .ok _ => .done (.ok transaction)

/-- The charge has landed: the new status is stored and counted, then announced. -/
def settle (order : Order) (method : Method) (transaction : String) (draw : Draw) :
    Action String :=
  match order.markPaid transaction method draw.now with
  | .error _ => refuse (.ofOrder order)
  | .ok paid =>
    .ask (.update paid order.status) fun
      | .error e => refuse (.ofStore e)
      | .ok _ => .ask (.count (.moved .paid)) fun _ => announce paid method transaction draw

/-- **An order is paid**: charged once, stored as paid, then announced. -/
def pay (id : Uuid) (method : Method) (draw : Draw) : Action String :=
  .ask (.load id) fun
    | .error e => refuse (.ofStore e)
    | .ok order =>
      -- nothing is charged for an order that cannot be paid
      match order.ensureCanBecome .paid with
      | .error _ => refuse (.ofOrder order)
      | .ok _ =>
        .ask (.charge order.id order.user method) fun
          | .error _ => refuse .paymentFailed
          | .ok transaction => settle order method transaction draw

/-- **An order is cancelled.** -/
def cancel (id : Uuid) (now : Instant) : Action Unit :=
  .ask (.load id) fun
    | .error e => refuse (.ofStore e)
    | .ok order =>
      match order.cancel now with
      | .error _ => refuse (.ofOrder order)
      | .ok cancelled =>
        .ask (.update cancelled order.status) fun
          | .error e => refuse (.ofStore e)
          | .ok _ => .ask (.count (.moved .cancelled)) fun _ => .done (.ok ())

/-- The status of an order that is assembled already is stored once more. -/
def reassert (order : Order) : Action Unit :=
  .ask (.update order .assembled) fun
    | .error e => refuse (.ofStore e)
    | .ok _ => .done (.ok ())

/-- **An order was assembled.** Told again it changes nothing, and whoever is beaten by another
delivery of the same news succeeds as well. -/
def assemble (id : Uuid) (now : Instant) : Action Unit :=
  .ask (.load id) fun
    | .error e => refuse (.ofStore e)
    | .ok order =>
      if order.status = .assembled then reassert order
      else match order.markAssembled now with
        | .error _ => refuse (.ofOrder order)
        | .ok assembled =>
          .ask (.update assembled order.status) fun
            -- another delivery of the same news was faster
            | .error (.conflict _ _ .assembled) => .done (.ok ())
            | .error e => refuse (.ofStore e)
            | .ok _ => .ask (.count (.moved .assembled)) fun _ => .done (.ok ())

end OrderDesk.Desk
