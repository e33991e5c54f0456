import OrderDesk.Toml.Value

/-!
# Settings

What the layers of a configuration say, with the layer that said it. Tables of several layers are
merged member by member; anything else replaces what was there.

## Main definitions

* `Origin`, `Scalar`, `Value`
* `Step`: a step to a setting within another one
* `Value.overlay`: a value laid over another one
* `Value.put`: a value laid over the one at a path
-/

namespace OrderDesk.Config

/-- **Where a setting comes from.** -/
inductive Origin where
  | file (path : String)
  | environment
  deriving DecidableEq, Repr

/-- The wording of an origin. -/
def Origin.label : Origin → String
  | file path => path
  | environment => "the environment"

/-- **A single setting.** -/
inductive Scalar where
  | boolean (value : Bool)
  | integer (value : Int)
  | float (value : Float)
  | text (value : String)
  deriving DecidableEq

/-- **A setting**: a single one, a list, or a table. What was made to hold others has no one
origin. -/
inductive Value where
  /-- An item of a list that was made longer, about which nothing was said. -/
  | unset
  | scalar (origin : Origin) (value : Scalar)
  | list (origin : Option Origin) (items : List Value)
  | table (origin : Option Origin) (members : List (String × Value))

/-- **A step to a setting within another one.** A negative place counts from the end of a list. -/
inductive Step where
  | name (name : String)
  | place (index : Int)
  deriving DecidableEq, Repr

namespace Value

/-- The setting of a file. -/
def ofToml (origin : Origin) : Toml.Value → Value
  | .text s => .scalar origin (.text s)
  | .integer n => .scalar origin (.integer n)
  | .float x => .scalar origin (.float x)
  | .boolean b => .scalar origin (.boolean b)
  | .moment written => .scalar origin (.text written)
  | .list items => .list (some origin) (ofItems items)
  | .table members => .table (some origin) (ofMembers members)
where
  ofItems : List Toml.Value → List Value
    | [] => []
    | v :: rest => ofToml origin v :: ofItems rest
  ofMembers : List (String × Toml.Value) → List (String × Value)
    | [] => []
    | (k, v) :: rest => (k, ofToml origin v) :: ofMembers rest

/-- The members with another value under a name, which may depend on the one that was there. -/
def alter (name : String) (f : Option Value → Value) :
    List (String × Value) → List (String × Value)
  | [] => [(name, f none)]
  | (k, v) :: rest => if k == name then (k, f (some v)) :: rest else (k, v) :: alter name f rest

/-- The members of a setting; one that is no table has none. -/
def membersOf : Option Value → List (String × Value)
  | some (table _ members) => members
  | _ => []

/-- The items of a setting; one that is no list has none. -/
def itemsOf : Option Value → List Value
  | some (list _ items) => items
  | _ => []

/-- The origin of a setting that is a table. -/
def tableOrigin : Option Value → Option Origin
  | some (table origin _) => origin
  | _ => none

/-- The origin of a setting that is a list. -/
def listOrigin : Option Value → Option Origin
  | some (list origin _) => origin
  | _ => none

/-- **A setting laid over another one.** A table that members are laid into stays the table that it
was. -/
def overlay : Value → Option Value → Value
  | unset, _ => .unset
  | scalar origin value, _ => .scalar origin value
  | list origin items, _ => .list origin items
  | table _ members, old => .table (tableOrigin old) (overlayAll members (membersOf old))
where
  overlayAll : List (String × Value) → List (String × Value) → List (String × Value)
    | [], old => old
    | (k, v) :: rest, old => overlayAll rest (alter k (overlay v) old)

/-- **A place in a list**, which is made longer if it has no such place: at its end, or in front if
the place counts from the end. -/
def reach (index : Int) (items : List Value) : Nat × List Value :=
  if 0 ≤ index then
    (index.toNat, items ++ List.replicate (index.toNat + 1 - items.length) .unset)
  else
    (items.length - index.natAbs, List.replicate (index.natAbs - items.length) .unset ++ items)

/-- **A setting laid over the one at a path.** What is no table or no list on the way is replaced by
one. -/
def put (value : Value) : List Step → Option Value → Value
  | [], old => value.overlay old
  | .name name :: path, old =>
    .table (tableOrigin old) (alter name (put value path) (membersOf old))
  | .place index :: path, old =>
    let (place, items) := reach index (itemsOf old)
    .list (listOrigin old) (items.modify place fun item => put value path (some item))

end Value

end OrderDesk.Config
