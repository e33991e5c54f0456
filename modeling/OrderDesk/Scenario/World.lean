import OrderDesk.Desk.Basic
import OrderDesk.Event.Json
import OrderDesk.Json.Value
import OrderDesk.Store.Basic

/-!
# A scripted world

Those the desk works with, following a script: an inventory over a catalog, a payment service, an
announcer of events, and a store that may fail, be written by others in between, or show an old
copy of an order. What was asked of them is remembered.

## Main definitions

* `World`: the script and what has happened
* `World.answer`: the answer to a question of the desk
-/

namespace OrderDesk.Scenario

/-- How the inventory answers. -/
inductive Inventory where
  /-- One part per requested id that is in the catalog, in the order of the request. -/
  | matching
  /-- Each part whose id was requested, once, in the order of the catalog. -/
  | scanning
  /-- The whole catalog. -/
  | everything
  | failing (e : ClientError)

/-- How the payment service answers. -/
inductive Cashier where
  | fixed (transaction : String)
  /-- The transaction is named for the order. -/
  | byOrder
  /-- It never answers. -/
  | silent
  | failing (e : ClientError)

/-- How the announcer answers. -/
inductive Announcer where
  | accepting
  | failing (e : PublishError)

/-- **Another writer**, who stores a status and, if given, payment details. -/
structure Rival where
  id : Uuid
  status : Status
  transaction : Option String
  method : Option Method

/-- The calls of the store that can be made to fail. -/
inductive StoreCall where
  | create
  | load
  | update
  deriving DecidableEq

/-- **The world**: its script, its store, and what was asked so far, oldest first. -/
structure World where
  store : Store
  catalog : List Part
  inventory : Inventory
  cashier : Cashier
  announcer : Announcer
  faults : List (StoreCall × StoreError)
  rivalsAtUpdate : List Rival
  rivalsAtCharge : List Rival
  pinned : List Order
  lookups : List (List String)
  charges : List (Uuid × String × Method)
  events : List PaidEvent
  counters : Option Counters
  registered : Bool
  /-- Whether somebody was broken off by a counter. -/
  broken : Bool

namespace World

/-- The world before the first step: four parts, and all goes well. -/
def initial (counted : Bool) : World where
  store := .empty
  catalog := [⟨"p1", "p1", 100⟩, ⟨"p2", "p2", 50⟩, ⟨"p3", "p3", 0.1⟩, ⟨"p4", "p4", 0.2⟩]
  inventory := .matching
  cashier := .fixed "txn-1"
  announcer := .accepting
  faults := []
  rivalsAtUpdate := []
  rivalsAtCharge := []
  pinned := []
  lookups := []
  charges := []
  events := []
  counters := if counted then some .zero else none
  registered := counted
  broken := false

/-- The first failure scripted for a call, and the failures without it. -/
def takeFault (call : StoreCall) :
    List (StoreCall × StoreError) → Option (StoreError × List (StoreCall × StoreError))
  | [] => none
  | (c, e) :: rest =>
    if c = call then some (e, rest)
    else (takeFault call rest).map fun (found, left) => (found, (c, e) :: left)

/-- The store after another writer. -/
def afterRival (now : Instant) (s : Store) (r : Rival) : Store :=
  match s.find? r.id with
  | none => s
  | some o =>
    s.revise r.id r.status (r.transaction <|> o.transaction) (r.method <|> o.method) now

/-- The store after other writers, one after another. -/
def afterRivals (now : Instant) (s : Store) (rivals : List Rival) : Store :=
  rivals.foldl (afterRival now) s

/-- The parts that the inventory finds. -/
def findParts (w : World) (ids : List String) : Except ClientError (List Part) :=
  match w.inventory with
  | .matching => .ok (ids.filterMap fun id => w.catalog.find? fun p => p.id == id)
  | .scanning => .ok (w.catalog.filter fun p => ids.contains p.id)
  | .everything => .ok w.catalog
  | .failing e => .error e

/-- The outcome of a charge, if there is one. -/
def takeCharge (w : World) (order : Uuid) : Option (Except ClientError String) :=
  match w.cashier with
  | .fixed transaction => some (.ok transaction)
  | .byOrder => some (.ok ("txn-" ++ order.simple))
  | .silent => none
  | .failing e => some (.error e)

/-- An order as the desk is shown it: the pinned copy, if there is one. -/
def load (w : World) (id : Uuid) : Except StoreError Order :=
  match w.pinned.find? fun o => o.id == id with
  | some o => .ok o
  | none => w.store.load id

/-- A call of the store by the desk: it may be made to fail. -/
def withFault {α : Type} (w : World) (call : StoreCall)
    (otherwise : World → Option (Except StoreError α) × World) :
    Option (Except StoreError α) × World :=
  match takeFault call w.faults with
  | some (e, left) => (some (.error e), { w with faults := left })
  | none => otherwise w

/-- A new order in the store; `draws` are the ids drawn if its own is in use. -/
def create (order : Order) (draws : List Uuid) (w : World) :
    Option (Except StoreError Order) × World :=
  match w.store.create order draws with
  | some (created, store) => (some (.ok created), { w with store })
  | none => (none, w)

/-- A conditional write in the store. -/
def update (order : Order) (expected : Status) (now : Instant) (w : World) :
    Option (Except StoreError Unit) × World :=
  match w.store.update order expected now with
  | .ok store => (some (.ok ()), { w with store })
  | .error e => (some (.error e), w)

/-- What is counted, if there are counters. One that does not take it breaks the desk off. -/
def count (tally : Tally) (w : World) : Option Unit × World :=
  match w.counters with
  | none => (some (), w)
  | some counters =>
    match counters.count tally with
    | some counters => (some (), { w with counters := some counters })
    | none => (none, { w with broken := true })

/-- **The answer to a question of the desk.** -/
def answer (now : Instant) (draws : List Uuid) :
    (call : Call) → World → Option call.Answer × World
  | .listParts filter, w =>
    (some (w.findParts filter.ids), { w with lookups := w.lookups ++ [filter.ids] })
  | .charge order user method, w =>
    (w.takeCharge order, { w with
      charges := w.charges ++ [(order, user, method)]
      store := afterRivals now w.store w.rivalsAtCharge
      rivalsAtCharge := [] })
  | .publish event, w =>
    match w.announcer with
    | .accepting => (some (.ok ()), { w with events := w.events ++ [event] })
    | .failing e => (some (.error e), w)
  | .create order, w => w.withFault .create (create order draws)
  | .load id, w => w.withFault .load fun w => (some (w.load id), w)
  | .update order expected, w => w.withFault .update fun w =>
    update order expected now { w with
      store := afterRivals now w.store w.rivalsAtUpdate
      rivalsAtUpdate := [] }
  | .count tally, w => w.count tally

end World

end OrderDesk.Scenario
