import OrderDesk.Http.Message
import OrderDesk.Http.Path

/-!
# Routes

What a path leads to, and which methods are served there.

## Main definitions

* `Route`, `Route.ofTarget?`
* `Route.allowed`: the methods of a route
-/

namespace OrderDesk.Http

/-- **What a path leads to.** The id of an order is a raw segment. -/
inductive Route where
  | health
  | counters
  | orders
  | order (id : List Char)
  | pay (id : List Char)
  | cancel (id : List Char)
  deriving DecidableEq, Repr

namespace Route

/-- The names of the segments in front of an id. -/
def stem : List (List Char) := ["api".toList, "v1".toList, "orders".toList]

/-- **The route of a path.** An id at the end of a path must not be empty. -/
def ofSegments? : List (List Char) → Option Route
  | [name] =>
    if name = "health".toList then some health
    else if name = "metrics".toList then some counters
    else none
  | [a, b, c] => if [a, b, c] = stem then some orders else none
  | [a, b, c, id] => if [a, b, c] = stem ∧ id ≠ [] then some (order id) else none
  | [a, b, c, id, action] =>
    if [a, b, c] ≠ stem then none
    else if action = "pay".toList then some (pay id)
    else if action = "cancel".toList then some (cancel id)
    else none
  | _ => none

/-- The route of a target. -/
def ofTarget? (target : String) : Option Route :=
  ofSegments? (targetSegments target)

/-- Whether a route is looked at, with `GET` or `HEAD`; the others are posted to. -/
def isRead : Route → Bool
  | health | counters | order _ => true
  | orders | pay _ | cancel _ => false

/-- The methods of a route, as a header. -/
def allowed (r : Route) : String :=
  if r.isRead then "GET,HEAD" else "POST"

/-- Whether a route serves a method. -/
def serves (r : Route) (method : String) : Bool :=
  if r.isRead then method == "GET" || method == "HEAD" else method == "POST"

end Route

end OrderDesk.Http
