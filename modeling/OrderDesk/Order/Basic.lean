import OrderDesk.Instant.Basic
import OrderDesk.Method
import OrderDesk.Order.Status
import OrderDesk.Uuid

/-!
# Orders

A customer's purchase of parts, and the three steps of its life. A step that is not legal leaves
the order as it is.

## Main definitions

* `Order`, `Order.placed`
* `Order.markPaid`, `Order.cancel`, `Order.markAssembled`, `Order.ensureCanBecome`: the steps on a
  copy, which is dropped if the step is refused
* `Change`: the steps in place, one write after another
* `Order.obey`, `Order.after`: what a command answers, and the order that it leaves behind
-/

namespace OrderDesk

/-- **An order.** The total is the sum of the prices of its parts when it was placed; transaction
and method are those of its payment. -/
structure Order where
  id : Uuid
  user : String
  parts : List String
  total : Float
  status : Status
  transaction : Option String
  method : Option Method
  createdAt : Instant
  updatedAt : Instant
  deriving DecidableEq, Inhabited

/-- **A step that is not legal.** -/
structure InvalidTransition where
  current : Status
  requested : Status
  deriving DecidableEq, Repr

/-- The wording of the refusal. -/
def InvalidTransition.message (e : InvalidTransition) : String :=
  "Invalid state transition from " ++ e.current.name ++ " to " ++ e.requested.name

namespace Order

/-- **A new order**, which waits for its payment. -/
def placed (id : Uuid) (now : Instant) (user : String) (parts : List String) (total : Float) :
    Order :=
  { id, user, parts, total, status := .pendingPayment, transaction := none, method := none,
    createdAt := now, updatedAt := now }

/-- Whether a step is legal. -/
def ensureCanBecome (o : Order) (next : Status) : Except InvalidTransition Unit :=
  if o.status.canBecome next then .ok () else .error ⟨o.status, next⟩

/-- A legal step, taken at `now`. -/
def advance (o : Order) (next : Status) (now : Instant) : Except InvalidTransition Order :=
  match o.ensureCanBecome next with
  | .ok _ => .ok { o with status := next, updatedAt := now }
  | .error e => .error e

/-- **The order is paid.** Payment details are written once. -/
def markPaid (o : Order) (transaction : String) (method : Method) (now : Instant) :
    Except InvalidTransition Order :=
  match o.advance .paid now with
  | .ok o => .ok { o with transaction := some transaction, method := some method }
  | .error e => .error e

/-- **The order is cancelled.** -/
def cancel (o : Order) (now : Instant) : Except InvalidTransition Order :=
  o.advance .cancelled now

/-- **The order is assembled.** -/
def markAssembled (o : Order) (now : Instant) : Except InvalidTransition Order :=
  o.advance .assembled now

/-- Equality with floats compared as numbers: a total that is not a number makes an order differ
from itself. -/
def sameAs (a b : Order) : Bool :=
  a.total == b.total && decide ({ a with total := 0 } = { b with total := 0 })

end Order

/-- **A change made in place.** What was written before a refusal stays written. -/
abbrev Change := ExceptT InvalidTransition (StateM Order) Unit

namespace Change

/-- What a change answers, and the order that it leaves behind. -/
def on (c : Change) (o : Order) : Except InvalidTransition Unit × Order := c.run.run o

/-- Looks whether a step is legal, and writes nothing. -/
def ensure (next : Status) : Change := do
  let o ← get
  if o.status.canBecome next then pure () else throw ⟨o.status, next⟩

/-- A step taken at `now`: the status is written once the step is known to be legal. -/
def advance (next : Status) (now : Instant) : Change := do
  ensure next
  modify fun o => { o with status := next }
  modify fun o => { o with updatedAt := now }

/-- **The order is paid.** The payment is written behind the step, which may refuse it. -/
def markPaid (transaction : String) (method : Method) (now : Instant) : Change := do
  advance .paid now
  modify fun o => { o with transaction := some transaction }
  modify fun o => { o with method := some method }

/-- The order is cancelled. -/
def cancel (now : Instant) : Change := advance .cancelled now

/-- The order is assembled. -/
def markAssembled (now : Instant) : Change := advance .assembled now

end Change

namespace Order

/-- **The steps of an order's life**, as commands. -/
inductive Command where
  | markPaid (transaction : String) (method : Method)
  | cancel
  | markAssembled
  | ensure (next : Status)
  deriving DecidableEq, Repr

/-- The change that a command given at `now` makes. -/
def Command.change (now : Instant) : Command → Change
  | markPaid transaction method => .markPaid transaction method now
  | cancel => .cancel now
  | markAssembled => .markAssembled now
  | ensure next => .ensure next

/-- **The answer to a command** given at `now`. -/
def obey (o : Order) (now : Instant) (command : Command) : Except InvalidTransition Unit :=
  ((command.change now).on o).1

/-- **The order after a command**, whether it was refused or not. -/
def after (o : Order) (now : Instant) (command : Command) : Order :=
  ((command.change now).on o).2

end Order

end OrderDesk
