import OrderDesk.Toml.Value

/-!
# Tables while they are read

A table may be made in several steps: by its header, by the headers of tables within it, or by paths
of keys. What was made in one way may not be made again in another, and nothing may be said twice.

## Main definitions

* `Making`, `Node`, `Members`
* `Members.define`: a value at a path of keys
* `Members.openTable`, `Members.openItem`: what a header makes
* `Members.toValue`
-/

namespace OrderDesk.Toml

/-- **How a table was made.** -/
inductive Making where
  /-- By the header of a table within it. -/
  | passedThrough
  /-- By its own header. -/
  | opened
  /-- By a path of keys. -/
  | dotted
  deriving DecidableEq, Repr

/-- **What a member is** while a text is read: a finished value, a table, or a list of tables of
which the last one is still open. -/
inductive Node where
  | finished (value : Value)
  | table (making : Making) (members : List (String × Node))
  | tables (earlier : List (List (String × Node))) (last : List (String × Node))

/-- **The members of a table** while it is read, and how the table was made. -/
structure Members where
  making : Making
  nodes : List (String × Node)

namespace Node

/-- The value that a member has become. -/
def toValue : Node → Value
  | finished v => v
  | table _ members => .table (membersValue members)
  | tables earlier last => .list (tablesValue earlier ++ [.table (membersValue last)])
where
  membersValue : List (String × Node) → List (String × Value)
    | [] => []
    | (k, n) :: rest => (k, n.toValue) :: membersValue rest
  tablesValue : List (List (String × Node)) → List Value
    | [] => []
    | t :: rest => .table (membersValue t) :: tablesValue rest

end Node

namespace Members

/-- A table without members. -/
def empty (making : Making) : Members := ⟨making, []⟩

/-- The table of the members. -/
def toValue (m : Members) : Value := .table (Node.toValue.membersValue m.nodes)

/-- The table of the members, as a member. -/
def toNode (m : Members) : Node := .table m.making m.nodes

/-- The member with a name. -/
def get? (m : Members) (name : String) : Option Node := m.nodes.lookup name

/-- The members with another one at a name. -/
def put (m : Members) (name : String) (node : Node) : Members :=
  { m with
    nodes :=
      if (m.get? name).isSome then m.nodes.map fun (k, n) => if k == name then (k, node) else (k, n)
      else m.nodes ++ [(name, node)] }

/-- **A change at the end of a path.** Tables on the way that are not there are made; a path of keys
may not pass through a table that has a header. -/
def within (dotted : Bool) (change : Members → Option Members) :
    List String → Members → Option Members
  | [], m => change m
  | key :: path, m =>
    match m.get? key with
    | none =>
      (within dotted change path (empty (if dotted then .dotted else .passedThrough))).map fun t =>
        m.put key t.toNode
    | some (.table making nodes) =>
      if dotted && making == .opened then none
      else (within dotted change path ⟨making, nodes⟩).map fun t => m.put key t.toNode
    | some (.tables earlier last) =>
      -- the path goes on in the last table of the list
      (within dotted change path ⟨.opened, last⟩).map fun t => m.put key (.tables earlier t.nodes)
    | some (.finished _) => none

/-- A value under a name that is free. -/
def add (name : String) (value : Value) (m : Members) : Option Members :=
  if (m.get? name).isSome then none else some (m.put name (.finished value))

/-- **A value at a path of keys.** The table at the end of a longer path counts as made by a path
from then on; it must not have a header. -/
def define (m : Members) (path : List String) (value : Value) : Option Members :=
  match path.getLast? with
  | none => none
  | some name =>
    let parents := path.dropLast
    within true
      (fun m =>
        if parents.isEmpty then add name value m
        else if m.making == .opened then none
        else add name value { m with making := .dotted })
      parents m

/-- **A value at a path of keys below a header.** -/
def defineBelow (m : Members) (header path : List String) (value : Value) : Option Members :=
  within false (fun m => m.define path value) header m

/-- **The header of a table.** The table may have been passed through, but not made otherwise. -/
def openTable (m : Members) (header : List String) : Option Members :=
  match header.getLast? with
  | none => none
  | some name =>
    within false
      (fun m =>
        match m.get? name with
        | none => some (m.put name (.table .opened []))
        | some (.table .passedThrough nodes) => some (m.put name (.table .opened nodes))
        | _ => none)
      header.dropLast m

/-- **The header of one more table in a list.** -/
def openItem (m : Members) (header : List String) : Option Members :=
  match header.getLast? with
  | none => none
  | some name =>
    within false
      (fun m =>
        match m.get? name with
        | none => some (m.put name (.tables [] []))
        | some (.tables earlier last) => some (m.put name (.tables (earlier ++ [last]) []))
        | _ => none)
      header.dropLast m

end Members

end OrderDesk.Toml
