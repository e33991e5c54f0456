import OrderDesk.Http.Service
import OrderDesk.Scenario.Feed

/-!
# Steps of a scenario

A scenario changes the script of its world, asks the desk, goes around it to the store, sends
requests, feeds the reader, or looks at what has happened.

## Main definitions

* `Step`, `Outcome`
* `World.step`: what a step does
-/

namespace OrderDesk.Scenario

/-- **A step of a scenario.** -/
inductive Step where
  | setCatalog (catalog : List Part)
  | setInventory (inventory : Inventory)
  | setCashier (cashier : Cashier)
  | setAnnouncer (announcer : Announcer)
  | fault (call : StoreCall) (e : StoreError)
  | rivalAtUpdate (rival : Rival)
  | rivalAtCharge (rival : Rival)
  | pin (id : Uuid)
  | unpin
  | place (user : String) (ids : List String)
  | get (id : Uuid)
  | pay (id : Uuid) (method : Method)
  | cancel (id : Uuid)
  | assemble (id : Uuid)
  | storeCreate (order : Order)
  | storeLoad (id : Uuid)
  | storeUpdate (order : Order) (expected : Status)
  | storeIsEmpty
  | request (r : Http.Request)
  | consume (deliveries : List Delivery) (refusedCommits : List (Int × String))
  | supervise (log : List Message) (scripts : List AttemptScript) (attempts : Nat)
  | register
  | calls

/-- **What a step shows.** -/
inductive Outcome where
  | set
  | order (result : Except DeskError Order)
  | transaction (result : Except DeskError String)
  | done (result : Except DeskError Unit)
  | stored (result : Except StoreError Order)
  | updated (result : Except StoreError Unit)
  | empty (answer : Bool)
  | response (r : Http.Response)
  | consumed (outcome : Consumer.Outcome) (committed : List Int)
  | supervised (committed : Nat) (trace : List Trace)
  | registered (accepted : Bool)
  | calls (lookups : List (List String)) (charges : List (Uuid × String × Method))
      (events : List PaidEvent)
  /-- The step never ends. -/
  | stuck

namespace World

/-- A program of the desk in this world. -/
def perform {R : Type} (w : World) (draw : Desk.Draw) (draws : List Uuid)
    (program : Program Call Call.Answer R) : Option R × World :=
  program.run (World.answer draw.now draws) w

/-- What a program's result shows; one without a result never ends. -/
def shown {R : Type} (f : R → Outcome) : Option R × World → Outcome × World
  | (some r, w) => (f r, w)
  | (none, w) => (.stuck, w)

/-- The counters that are shown to those who ask over HTTP: once registered there are some, even if
nothing is counted. -/
def exposed (w : World) : Option Counters :=
  if w.registered then some (w.counters.getD .zero) else none

/-- A request; one that never ends is answered when its time is over, unless it was broken off. -/
def serve (w : World) (draw : Desk.Draw) (draws : List Uuid) (r : Http.Request) :
    Outcome × World :=
  match w.perform draw draws (Http.serve w.exposed draw r) with
  | (some response, w) => (.response response, w)
  | (none, w) => (if w.broken then .stuck else .response Http.timedOut, w)

/-- The reader over some deliveries. -/
def feed (w : World) (now : Instant) (deliveries : List Delivery)
    (refusedCommits : List (Int × String)) : Outcome × World :=
  match Scenario.consume now ⟨w, deliveries, refusedCommits, []⟩ with
  | (some outcome, f) => (.consumed outcome f.committed, f.world)
  | (none, f) => (.stuck, f.world)

/-- The supervisor over a log. -/
def supervise (w : World) (now : Instant) (log : List Message) (scripts : List AttemptScript)
    (attempts : Nat) : Outcome × World :=
  match Scenario.supervise now scripts attempts ⟨w, log, 0, 0, []⟩ with
  | (some _, l) => (.supervised l.committed l.trace, l.world)
  | (none, l) => (.stuck, l.world)

/-- The world in which today's copy of an order is shown from now on. -/
def pin (w : World) (id : Uuid) : World :=
  match w.store.find? id with
  | some o => { w with pinned := o :: w.pinned }
  | none => w

/-- **What a step does**, with the id and the time it draws and more ids should they be needed. -/
def step (w : World) (draw : Desk.Draw) (draws : List Uuid) : Step → Outcome × World
  | .setCatalog catalog => (.set, { w with catalog })
  | .setInventory inventory => (.set, { w with inventory })
  | .setCashier cashier => (.set, { w with cashier })
  | .setAnnouncer announcer => (.set, { w with announcer })
  | .fault call e => (.set, { w with faults := w.faults ++ [(call, e)] })
  | .rivalAtUpdate r => (.set, { w with rivalsAtUpdate := w.rivalsAtUpdate ++ [r] })
  | .rivalAtCharge r => (.set, { w with rivalsAtCharge := w.rivalsAtCharge ++ [r] })
  | .pin id => (.set, w.pin id)
  | .unpin => (.set, { w with pinned := [] })
  | .place user ids => shown .order (w.perform draw draws (Desk.place user ids draw))
  | .get id => shown .order (w.perform draw draws (Desk.get id))
  | .pay id method => shown .transaction (w.perform draw draws (Desk.pay id method draw))
  | .cancel id => shown .done (w.perform draw draws (Desk.cancel id draw.now))
  | .assemble id => shown .done (w.perform draw draws (Desk.assemble id draw.now))
  | .storeCreate order => shown .stored (create order draws w)
  | .storeLoad id => (.stored (w.store.load id), w)
  | .storeUpdate order expected => shown .updated (update order expected draw.now w)
  | .storeIsEmpty => (.empty w.store.isEmpty, w)
  | .request r => w.serve draw draws r
  | .consume deliveries refusedCommits => w.feed draw.now deliveries refusedCommits
  | .supervise log scripts attempts => w.supervise draw.now log scripts attempts
  | .register => (.registered !w.registered, { w with registered := true })
  | .calls => (.calls w.lookups w.charges w.events, w)

end World

end OrderDesk.Scenario
