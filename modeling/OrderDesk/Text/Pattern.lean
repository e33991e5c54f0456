/-!
# Patterns

Extended regular expressions as far as their syntax goes. A pattern is a row of bytes, each of which
counts as a character. Nothing can be repeated at the start of an alternative or behind an anchor, a
closing parenthesis without an opening one stands for itself, and a backslash followed by a digit
refers to a group that has been closed.

## Main definitions

* `set?`: a set of characters in brackets
* `interval?`: a number of repetitions in braces
* `isPattern`: whether a text is a pattern
-/

namespace OrderDesk.Text.Pattern

/-! ## Sets of characters -/

/-- **An element of a set**, of which three kinds have a name between marks. -/
inductive Element where
  | single (c : Char)
  | symbol (name : List Char)
  | equivalents (name : List Char)
  | kind (name : List Char)
  deriving DecidableEq, Repr

namespace Element

/-- The names of the kinds of characters. -/
def kinds : List String :=
  ["alnum", "alpha", "blank", "cntrl", "digit", "graph", "lower", "print", "punct", "space",
   "upper", "xdigit"]

/-- **Whether an element may stand alone**: the name of a character is that character. -/
def isKnown : Element → Bool
  | single _ => true
  | symbol name => name.length == 1
  | equivalents name => name.length == 1
  | kind name => kinds.contains (String.ofList name)

/-- The character that an element stands for in a range. -/
def bound? : Element → Option Char
  | single c => some c
  | symbol [c] => some c
  | _ => none

/-- **Whether two elements make a range**, which is not empty. -/
def makeRange (first last : Element) : Bool :=
  match first.bound?, last.bound? with
  | some a, some b => a ≤ b
  | _, _ => false

end Element

/-- A name up to the mark in front of a bracket, and what follows the bracket. -/
def name? (mark : Char) : Nat → List Char → Option (List Char × List Char)
  | fuel + 1, c :: d :: rest =>
    if c == mark && d == ']' then some ([], rest)
    else (name? mark fuel (d :: rest)).map fun (name, rest) => (c :: name, rest)
  | _, _ => none

/-- How many characters a name and its mark take at most. -/
def maxName : Nat := 32

/-- An element of a set, and what follows it. A hyphen is one of its own at the start of the set, at
its end, and at the end of a range. -/
def element? (hyphen : Bool) : List Char → Option (Element × List Char)
  | '[' :: '.' :: rest => (name? '.' maxName rest).map fun (name, rest) => (.symbol name, rest)
  | '[' :: '=' :: rest => (name? '=' maxName rest).map fun (name, rest) => (.equivalents name, rest)
  | '[' :: ':' :: rest => (name? ':' maxName rest).map fun (name, rest) => (.kind name, rest)
  | '-' :: rest => if hyphen || rest.head? == some ']' then some (.single '-', rest) else none
  | c :: rest => some (.single c, rest)
  | [] => none

/-- What follows the range or the lone element that starts with `first`. -/
def range? (first : Element) (rest : List Char) : Option (List Char) :=
  match rest with
  | '-' :: ']' :: _ => if first.isKnown then some rest else none
  | '-' :: last =>
    match element? true last with
    | some (last, rest) => if first.makeRange last then some rest else none
    | none => none
  | _ => if first.isKnown then some rest else none

/-- What follows the closing bracket behind the elements of a set. -/
def elements? (start : Bool) : List Char → List Char → Option (List Char)
  | [], _ => none
  | _ :: fuel, text =>
    match element? start text with
    | none => none
    | some (first, rest) =>
      match range? first rest with
      | none => none
      | some (']' :: rest) => some rest
      | some rest => elements? false fuel rest

/-- **What follows a set of characters**, behind its opening bracket. A bracket at its start belongs
to it. -/
def set? : List Char → Option (List Char)
  | '^' :: rest => elements? true rest rest
  | text => elements? true text text

/-! ## Repetitions -/

/-- How often a part may be repeated. -/
def maxCount : Nat := 0x7FFF

/-- The number in front of a comma or a closing brace, if there is one, with what follows it. -/
def count? (n : Option Nat) : List Char → Option (Option Nat × List Char)
  | '\\' :: ',' :: rest => some (n, ',' :: rest)
  | '\\' :: '0' :: rest => count? (some (n.getD 0 * 10)) rest
  | c :: rest =>
    if c == ',' || c == '}' then some (n, c :: rest)
    else if c.isDigit then count? (some (n.getD 0 * 10 + (c.toNat - 48))) rest
    else none
  | [] => none

/-- **What follows a number of repetitions**, behind its opening brace: a number, or two with a
comma between them, the second not below the first. -/
def interval? (text : List Char) : Option (List Char) :=
  match count? none text with
  | some (some n, '}' :: rest) => if n ≤ maxCount then some rest else none
  | some (least, ',' :: rest) =>
    match count? none rest with
    | some (most, '}' :: rest) =>
      let least := least.getD 0
      let most := most.getD maxCount
      if least ≤ most ∧ most ≤ maxCount then some rest else none
    | _ => none
  | _ => none

/-! ## Groups -/

/-- **A group while it is read**: its number, and the closed groups at its start and behind its
earlier alternatives. -/
structure Group where
  number : Nat
  atStart : List Nat
  elsewhere : List Nat
  deriving DecidableEq, Repr

/-- **What was read of a pattern**: whether the part in front can be repeated, how many groups were
opened, which may be referred to, and the groups that are open, the innermost first. The whole
pattern is a group without a number. -/
structure Progress where
  repeatable : Bool
  opened : Nat
  closed : List Nat
  group : Group
  outer : List Group
  deriving DecidableEq, Repr

namespace Progress

/-- Nothing was read. -/
def start : Progress := ⟨false, 0, [], ⟨0, [], []⟩, []⟩

/-- A part that can be repeated. -/
def part (p : Progress) : Progress := { p with repeatable := true }

/-- A part that cannot be repeated. -/
def anchor (p : Progress) : Progress := { p with repeatable := false }

/-- One more group. -/
def openGroup (p : Progress) : Progress :=
  { p with
    repeatable := false
    opened := p.opened + 1
    group := ⟨p.opened + 1, p.closed, []⟩
    outer := p.group :: p.outer }

/-- One more alternative, which cannot refer to the groups of the others. -/
def alternative (p : Progress) : Progress :=
  { p with
    repeatable := false
    closed := p.group.atStart
    group := { p.group with elsewhere := p.closed ++ p.group.elsewhere } }

/-- The end of a group. A closing parenthesis without a group is a part of its own. -/
def closeGroup (p : Progress) : Progress :=
  match p.outer with
  | [] => p.part
  | group :: outer =>
    { p with
      repeatable := true
      closed := p.group.number :: (p.closed ++ p.group.elsewhere)
      group
      outer }

/-- A character behind a backslash, if it may stand there. -/
def escape? (p : Progress) (c : Char) : Option Progress :=
  if '1' ≤ c ∧ c ≤ '9' then
    if p.closed.contains (c.toNat - 48) then some p.part else none
  else if c ∈ ['<', '>', 'b', 'B', '\x60', '\''] then some p.anchor
  else some p.part

end Progress

/-- **Whether a pattern goes on with a text.** -/
def goesOn (p : Progress) : List Char → List Char → Bool
  | _, [] => p.outer.isEmpty
  | [], _ :: _ => false
  | _ :: fuel, c :: rest =>
    match c with
    | '\\' =>
      match rest with
      | [] => false
      | c :: rest =>
        match p.escape? c with
        | some p => goesOn p fuel rest
        | none => false
    | '[' =>
      match set? rest with
      | some rest => goesOn p.part fuel rest
      | none => false
    | '(' => goesOn p.openGroup fuel rest
    | ')' => goesOn p.closeGroup fuel rest
    | '|' => goesOn p.alternative fuel rest
    | '{' =>
      match interval? rest with
      | some rest => p.repeatable && goesOn p fuel rest
      | none => false
    | '^' => goesOn p.anchor fuel rest
    | '$' => goesOn p.anchor fuel rest
    | _ =>
      if c == '*' || c == '+' || c == '?' then p.repeatable && goesOn p fuel rest
      else goesOn p.part fuel rest

end Pattern

/-- **Whether a text is a pattern.** -/
def isPattern (text : String) : Bool :=
  let bytes := text.toUTF8.toList.map fun byte => Char.ofNat byte.toNat
  Pattern.goesOn .start bytes bytes

end OrderDesk.Text
