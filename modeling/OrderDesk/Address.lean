/-!
# Addresses

Which texts are addresses of peers or targets of requests. An address is a scheme, an authority and
a path with a query, where what stands in front may be missing: a single authority, or a path from
its first slash on.

## Main definitions

* `Address.authority?`: an authority in front
* `Address.pathIsSound`: what may stand in a path and a query
* `Address.schemeFrom`: a scheme in front
* `Address.path?`: the path of an address
* `Address.isSound`
-/

namespace OrderDesk.Address

/-! ## Authorities -/

/-- Whether a character may stand in an authority, the percent sign apart. -/
def isAuthorityChar (c : Char) : Bool :=
  c.isAlphanum || "!#$&'()*+,-./:;=?@[]_~".toList.contains c

/-- Whether a character ends an authority. -/
def endsAuthority (c : Char) : Bool :=
  c == '/' || c == '?' || c == '#'

/-- **What was seen of an authority** so far. Colons and percent signs are forgotten behind an `@`,
which ends the name of a user, and behind a closing bracket. -/
structure Seen where
  colons : Nat
  opened : Bool
  closed : Bool
  percent : Bool
  /-- The last character was an `@`. -/
  atLast : Bool

/-- Nothing was seen. -/
def Seen.start : Seen := ⟨0, false, false, false, false⟩

/-- Whether an authority may end here. -/
def Seen.mayEnd (s : Seen) : Bool :=
  s.opened == s.closed && s.colons ≤ 1 && !s.atLast && !s.percent

/-- What was seen with one more character, if it may stand there. -/
def Seen.step (s : Seen) (c : Char) : Option Seen :=
  if c == '%' then some { s with percent := true, atLast := false }
  else if !isAuthorityChar c then none
  else match c with
    | ':' => if 8 ≤ s.colons then none else some { s with colons := s.colons + 1, atLast := false }
    | '[' => if s.percent || s.opened then none else some { s with opened := true, atLast := false }
    | ']' =>
      if !s.opened || s.closed then none
      else some { s with closed := true, colons := 0, percent := false, atLast := false }
    | '@' => some { s with colons := 0, percent := false, atLast := true }
    | _ => some { s with atLast := false }

/-- What follows an authority, and how long it is. -/
def authorityFrom (s : Seen) (length : Nat) : List Char → Option (Nat × List Char)
  | [] => if s.mayEnd then some (length, []) else none
  | c :: rest =>
    if endsAuthority c then if s.mayEnd then some (length, c :: rest) else none
    else
      match s.step c with
      | none => none
      | some s => authorityFrom s (length + 1) rest

/-- **An authority in front**, which may be empty: its length, and what follows it. -/
def authority? (text : List Char) : Option (Nat × List Char) :=
  authorityFrom .start 0 text

/-! ## Paths -/

/-- Whether a character may stand in a query. -/
def isQueryChar (c : Char) : Bool :=
  0x20 < c.toNat && c.toNat ≠ 0x7F && !"\"#<>".toList.contains c

/-- Whether a character may stand in a path. -/
def isPathChar (c : Char) : Bool :=
  c == '"' || (isQueryChar c && c != '?' && c != '`')

/-- Whether a text is a query and a fragment, which may hold anything. -/
def queryIsSound : List Char → Bool
  | [] => true
  | c :: rest => c == '#' || (isQueryChar c && queryIsSound rest)

/-- **Whether a text is a path**, with its query and its fragment. -/
def pathIsSound : List Char → Bool
  | [] => true
  | c :: rest =>
    c == '#' || (if c == '?' then queryIsSound rest else isPathChar c && pathIsSound rest)

/-- The path in front of a query and a fragment. -/
def pathOf (text : List Char) : List Char :=
  text.takeWhile fun c => c != '?' && c != '#'

/-! ## Addresses -/

/-- Whether a character may stand in a scheme. -/
def isSchemeChar (c : Char) : Bool :=
  c.isAlphanum || "+-.~".toList.contains c

/-- The longest scheme. -/
def maxScheme : Nat := 64

/-- **A scheme in front.** -/
inductive Scheme where
  | missing
  | tooLong
  /-- What follows the scheme and its mark. -/
  | followedBy (rest : List Char)

/-- The scheme in front, behind `length` characters of it. -/
def schemeFrom (length : Nat) : List Char → Scheme
  | ':' :: '/' :: '/' :: rest => if maxScheme < length then .tooLong else .followedBy rest
  | c :: rest => if isSchemeChar c then schemeFrom (length + 1) rest else .missing
  | [] => .missing

/-- The path of what follows a scheme: an authority must come first, and a missing path is the
root. -/
def pathBehindScheme? (rest : List Char) : Option (List Char) :=
  match authority? rest with
  | none | some (0, _) => none
  | some (_ + 1, rest) =>
    if !pathIsSound rest then none
    else if (pathOf rest).isEmpty then some ['/']
    else some (pathOf rest)

/-- The path of an address that is not too long: a single authority has none. -/
def charsPath? (text : List Char) : Option (List Char) :=
  match text with
  | [] => none
  | ['*'] => some ['*']
  | '/' :: _ => if pathIsSound text then some (pathOf text) else none
  | _ =>
    match schemeFrom 0 text with
    | .tooLong => none
    | .followedBy rest => pathBehindScheme? rest
    | .missing =>
      match authority? text with
      | some (_, []) => some []
      | _ => none

/-- The longest address, in bytes. -/
def maxLength : Nat := 65534

/-- **The path of an address**, if the text is one. -/
def path? (text : String) : Option (List Char) :=
  if text.utf8ByteSize ≤ maxLength then charsPath? text.toList else none

/-- **Whether a text is an address.** -/
def isSound (text : String) : Bool := (path? text).isSome

end OrderDesk.Address
