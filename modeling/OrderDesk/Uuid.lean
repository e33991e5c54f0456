import OrderDesk.Text.Hex

/-!
# Identifiers

A `Uuid` is thirty-two hexadecimal digits. Printed, they are lower-case in groups of 8, 4, 4, 4
and 12; read, four spellings are accepted: the bare digits, the groups, the groups in braces, and
the groups behind `urn:uuid:`, letters in either case throughout.

## Main definitions

* `Uuid.toText`: the printed form
* `Uuid.parse?`: the reader
* `Uuid.parse`: the reader with the reason of a refusal
-/

namespace OrderDesk

open Text

/-- **An identifier**: thirty-two hexadecimal digits. -/
structure Uuid where
  digits : List (Fin 16)
  length_digits : digits.length = 32
  deriving DecidableEq

namespace Uuid

/-- The identifier whose digits are all zero. -/
def nil : Uuid := ⟨List.replicate 32 ⟨0, by decide⟩, rfl⟩

instance : Inhabited Uuid := ⟨nil⟩

/-- Thirty-two characters in groups of 8, 4, 4, 4 and 12. -/
def grouped (cs : List Char) : List Char :=
  cs.take 8 ++ '-' :: ((cs.drop 8).take 4 ++ '-' :: ((cs.drop 12).take 4 ++ '-' ::
    ((cs.drop 16).take 4 ++ '-' :: cs.drop 20)))

/-- The lower-case digits without hyphens. -/
def simpleChars (id : Uuid) : List Char :=
  id.digits.map Hex.digit

/-- The printed form, as characters. -/
def toChars (id : Uuid) : List Char :=
  grouped id.simpleChars

/-- The lower-case digits without hyphens. -/
def simple (id : Uuid) : String :=
  String.ofList id.simpleChars

/-- **The printed form**: lower-case groups joined by hyphens. -/
def toText (id : Uuid) : String :=
  String.ofList id.toChars

instance : ToString Uuid := ⟨toText⟩

/-- The identifier of exactly thirty-two digits. -/
def ofDigits? (ds : List (Fin 16)) : Option Uuid :=
  if h : ds.length = 32 then some ⟨ds, h⟩ else none

/-- The identifier that exactly thirty-two digit characters write. -/
def ofSimple? (cs : List Char) : Option Uuid :=
  (cs.mapM Hex.value?).bind ofDigits?

/-- The hyphens of `cs` stand exactly where the groups end. -/
def ungroup? (cs : List Char) : Option (List Char) :=
  let bare := cs.filter (· != '-')
  if cs = grouped bare then some bare else none

/-- The identifier that digits in groups write. -/
def ofGrouped? (cs : List Char) : Option Uuid :=
  (ungroup? cs).bind ofSimple?

/-- What stands between braces. -/
def unbrace? : List Char → Option (List Char)
  | '{' :: rest => if rest.getLast? = some '}' then some rest.dropLast else none
  | _ => none

/-- The lead of the urn spelling. -/
def urnLead : List Char := ['u', 'r', 'n', ':', 'u', 'u', 'i', 'd', ':']

/-- What stands behind `urn:uuid:`, in any case. -/
def unurn? (cs : List Char) : Option (List Char) :=
  if (cs.take 9).map Char.toLower = urnLead then some (cs.drop 9) else none

/-- **The four spellings.** -/
def ofChars? (cs : List Char) : Option Uuid :=
  ofSimple? cs
    <|> ofGrouped? cs
    <|> (unbrace? cs).bind ofGrouped?
    <|> (unurn? cs).bind ofGrouped?

/-- The identifier that a text spells. -/
def parse? (text : String) : Option Uuid :=
  ofChars? text.toList

/-- Why a text spells no identifier. -/
inductive ParseError where
  /-- The text is empty, too long, or bare digits in the wrong number. -/
  | length (found : Nat)
  /-- A character that is neither a digit nor a hyphen, and the byte where it starts. -/
  | character (found : Char) (index : Nat)
  /-- Not five groups. -/
  | groupCount (found : Nat)
  /-- The first group of the wrong length. -/
  | groupLength (group expected found : Nat)
  deriving DecidableEq, Repr

namespace ParseError

/-- The wording of a refusal. -/
def message : ParseError → String
  | length n => "invalid length: found " ++ toString n
  | character c i =>
    "invalid character: found `" ++ String.singleton c ++ "` at " ++ toString i
  | groupCount n => "invalid group count: expected 5, found " ++ toString n
  | groupLength g e n =>
    "invalid group length in group " ++ toString g ++ ": expected " ++ toString e
      ++ ", found " ++ toString n

/-- The bytes that a text takes. -/
def byteLength (cs : List Char) : Nat :=
  cs.foldl (fun n c => n + c.utf8Size) 0

/-- The first character that is neither a digit nor a hyphen, counting bytes from `index`. -/
def stranger? (index : Nat) : List Char → Option ParseError
  | [] => none
  | c :: rest =>
    if c == '-' || Hex.isDigit c then stranger? (index + c.utf8Size) rest
    else some (character c index)

/-- The lengths of the groups that hyphens part, the current one having `length` digits. -/
def groupLengths (length : Nat) : List Char → List Nat
  | [] => [length]
  | c :: rest => if c == '-' then length :: groupLengths 0 rest else groupLengths (length + 1) rest

/-- The first group among `found` whose length is not the one it should have; the last one is
counted to the end of the whole text. -/
def wrongGroup (total : Nat) : List Nat → ParseError
  | a :: b :: c :: d :: _ =>
    if a ≠ 8 then groupLength 0 8 a
    else if b ≠ 4 then groupLength 1 4 b
    else if c ≠ 4 then groupLength 2 4 c
    else if d ≠ 4 then groupLength 3 4 d
    else groupLength 4 12 (total - 24)
  | _ => length total

/-- What is wrong with the groups of `inner`, which starts at the byte `lead` of a text of `total`
bytes. Digits without any hyphen may be the bare spelling. -/
def ofGroups (total lead : Nat) (mayBeBare : Bool) (inner : List Char) : ParseError :=
  match stranger? lead inner with
  | some error => error
  | none =>
    let groups := groupLengths 0 inner
    if groups.length = 1 ∧ mayBeBare then length total
    else if groups.length ≠ 5 then groupCount groups.length
    else wrongGroup total groups

/-- What stands in braces or behind `urn:uuid:`, and where it starts. -/
def unwrap? (cs : List Char) : Option (Nat × List Char) :=
  match unbrace? cs with
  | some inner => some (1, inner)
  | none => (unurn? cs).map fun inner => (9, inner)

/-- **The reason of a refusal**, for a text that spells no identifier: its length, then its
characters, then the number of its groups, then their lengths. A text as long as a spelling without
any wrapping is read without one, and what is wrapped counts by itself if it is as long as the
groups. -/
def ofChars (cs : List Char) : ParseError :=
  let total := byteLength cs
  if total = 0 ∨ 45 < total then length total
  else if total = 36 then ofGroups total 0 false cs
  else match if total = 32 then none else unwrap? cs with
    | none => ofGroups total 0 true cs
    | some (lead, inner) =>
      if byteLength inner = 36 then ofGroups 36 0 false inner
      else ofGroups total lead false inner

end ParseError

/-- The identifier that a text spells, or why it spells none. -/
def parse (text : String) : Except ParseError Uuid :=
  match parse? text with
  | some id => .ok id
  | none => .error (.ofChars text.toList)

end Uuid

end OrderDesk
