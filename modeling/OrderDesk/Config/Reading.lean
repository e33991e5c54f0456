import OrderDesk.Config.Error
import OrderDesk.Decimal.Layout
import OrderDesk.Text.Lower
import OrderDesk.Text.Quoted

/-!
# Reading settings

A single setting is read as what is asked for, whatever it was written as, if that can be said
without doubt: numbers and words as switches, switches and numbers as texts, texts as numbers.

## Main definitions

* `Value.asText`, `Value.asSwitch`, `Value.asNatural`, `Value.asBounded`
* `Section`: the members of a part of the configuration, in a table or in a list
-/

namespace OrderDesk.Config

open OrderDesk.Text

/-- A setting as messages about its type show it. -/
def Value.kind : Value → String
  | .unset => "unit value"
  | .scalar _ (.boolean b) => "boolean `" ++ toString b ++ "`"
  | .scalar _ (.integer n) => "64-bit integer `" ++ toString n ++ "`"
  | .scalar _ (.float x) => "floating point `" ++ Decimal.plain x ++ "`"
  | .scalar _ (.text s) => "string " ++ quoted s
  | .list _ _ => "sequence"
  | .table _ _ => "map"

/-- The origin of a setting. -/
def Value.origin? : Value → Option Origin
  | .unset => none
  | .scalar origin _ => some origin
  | .list origin _ => origin
  | .table origin _ => origin

/-- A setting of another type than the expected one. -/
def Value.mistyped (v : Value) (expected : String) : Error :=
  .mistyped v.kind expected v.origin? []

/-! ## Single settings -/

/-- **A setting as a text.** -/
def Value.asText : Value → Except Error String
  | .scalar _ (.text s) => .ok s
  | .scalar _ (.boolean b) => .ok (toString b)
  | .scalar _ (.integer n) => .ok (toString n)
  | .scalar _ (.float x) => .ok (Decimal.plain x)
  | v => .error (v.mistyped "a string")

/-- The words for a switch. -/
def switchWord? (word : String) : Option Bool :=
  if word ∈ ["true", "on", "yes"] then some true
  else if word ∈ ["false", "off", "no"] then some false
  else none

/-- The words and digits for a switch. -/
def switch? (word : String) : Option Bool :=
  if word = "1" then some true else if word = "0" then some false else switchWord? word

/-- **A setting as a switch.** A text that is none is shown in small letters. -/
def Value.asSwitch : Value → Except Error Bool
  | .scalar _ (.boolean b) => .ok b
  | .scalar _ (.integer n) => .ok (decide (n ≠ 0))
  | .scalar _ (.float x) => .ok (x != 0)
  | .scalar origin (.text s) =>
    match switch? (lower s) with
    | some b => .ok b
    | none => .error (.mistyped ("string " ++ quoted (lower s)) "a boolean" (some origin) [])
  | v => .error (v.mistyped "a boolean")

/-- A text of digits, maybe behind a plus sign. -/
def numeral? (text : String) : Option Nat :=
  let digits := match text.toList with
    | '+' :: rest => rest
    | digits => digits
  if digits.isEmpty || !digits.all (fun c => '0' ≤ c && c ≤ '9') then none
  else
    let n := digits.foldl (fun n c => n * 10 + (c.toNat - 48)) 0
    if n < 0x10000000000000000 then some n else none

/-- A text as a number: a word for a switch, or digits. -/
def natural? (text : String) : Option Nat :=
  match switchWord? (lower text) with
  | some b => some b.toNat
  | none => numeral? text

/-- **A setting as a natural number** of 64 bits. A float goes to the nearest one, a half upwards.
-/
def Value.asNatural : Value → Except Error Nat
  | .scalar _ (.boolean b) => .ok b.toNat
  | .scalar origin (.integer n) =>
    if 0 ≤ n then .ok n.toNat
    else .error ((Value.scalar origin (.integer n)).mistyped "an unsigned 64 bit or less integer")
  | .scalar _ (.float x) => .ok x.round.toUInt64.toNat
  | .scalar origin (.text s) =>
    match natural? s with
    | some n => .ok n
    | none => .error ((Value.scalar origin (.text s)).mistyped "an integer")
  | v => .error (v.mistyped "an integer")

/-- **A setting as a natural number of a few bits.** -/
def Value.asBounded (bits : Nat) (v : Value) : Except Error Nat :=
  match v.asNatural with
  | .error e => .error e
  | .ok n =>
    if n < Nat.pow 2 bits then .ok n
    else .error (.mistyped ("64-bit unsigned integer `" ++ toString n ++ "`")
      ("an unsigned " ++ toString bits ++ " bit integer") none [])

/-! ## Parts of a configuration -/

/-- **The members of a part** of the configuration, by their names or by their places. -/
inductive Section where
  | named (members : List (String × Value))
  | placed (title : String) (size : Nat) (items : List Value)

namespace Section

/-- A setting that is no part of a configuration, as messages show it. -/
def kindInstead : Value → String
  | .scalar _ (.integer n) => "integer `" ++ toString n ++ "`"
  | .scalar _ (.float x) => "floating point `" ++ Decimal.pointed x ++ "`"
  | v => v.kind

/-- **A setting as a part** of the configuration, whose title and size messages tell. -/
def of (title : String) (size : Nat) : Value → Except Error Section
  | .table _ members => .ok (.named members)
  | .list _ items => .ok (.placed title size items)
  | v => .error (.refused ("invalid type: " ++ kindInstead v ++ ", expected struct " ++ title) [])

/-- A member, with the step to it. -/
def find? (s : Section) (name : String) (place : Nat) : Option (Step × Value) :=
  match s with
  | named members => (members.lookup name).map fun v => (.name name, v)
  | placed _ _ items => items[place]?.map fun v => (.place place, v)

/-- **A member that is read**, if it is there. -/
def read? {α : Type} (s : Section) (name : String) (place : Nat) (read : Value → Except Error α) :
    Except Error (Option α) :=
  match s.find? name place with
  | none => .ok none
  | some (step, v) =>
    match read v with
    | .ok a => .ok (some a)
    | .error e => .error (e.within step)

/-- The error of a member that is not there. -/
def lacks (s : Section) (name : String) (place : Nat) : Error :=
  match s with
  | named _ => .missing [.name name]
  | placed title size _ =>
    .refused ("invalid length " ++ toString place ++ ", expected struct " ++ title ++ " with "
      ++ toString size ++ (if size = 1 then " element" else " elements")) []

/-- **A member that must be there.** -/
def need {α : Type} (s : Section) (name : String) (place : Nat) : Option α → Except Error α
  | some a => .ok a
  | none => .error (s.lacks name place)

end Section

end OrderDesk.Config
