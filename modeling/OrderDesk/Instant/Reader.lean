import OrderDesk.Instant.Basic
import OrderDesk.Text.Blank

/-!
# Reading instants

The reader of RFC 3339 texts is lenient: blanks may stand before a number and around the marks
between numbers, months, days and times may have one digit, a year may be signed and then have any
number of digits, `T` may be `t` or a blank, and the offset may be `Z`, `UTC` or hours and minutes
parted by any colons and blanks. An instant with an offset is read as the same instant in UTC.

## Main definitions

* `Instant.ReadError`: the reasons of a refusal
* `Instant.read`: the reader
-/

namespace OrderDesk.Instant

open Calendar Text

/-- Why a text writes no instant. -/
inductive ReadError where
  | invalid
  | outOfRange
  | tooShort
  | tooLong
  | impossible
  deriving DecidableEq, Repr

/-- The wording of a refusal. -/
def ReadError.message : ReadError → String
  | invalid => "input contains invalid characters"
  | outOfRange => "input is out of range"
  | tooShort => "premature end of input"
  | tooLong => "trailing input"
  | impossible => "no possible date and time matching input"

/-- The value of a decimal digit. -/
def digit? (c : Char) : Option Nat :=
  if '0' ≤ c ∧ c ≤ '9' then some (c.toNat - 48) else none

/-- The largest number that is still counted. -/
def largest : Nat := 0x7FFFFFFFFFFFFFFF

/-- The digits at the head of a text, at most `most` of them, onto `n`; `none` is no limit. -/
def digitsOnto (n : Nat) : Option Nat → List Char → Except ReadError (Nat × List Char)
  | some 0, text => .ok (n, text)
  | _, [] => .ok (n, [])
  | most, c :: rest =>
    match digit? c with
    | none => .ok (n, c :: rest)
    | some d =>
      let next := n * 10 + d
      if largest < next then .error .outOfRange
      else digitsOnto next (most.map (· - 1)) rest

/-- A number of at least one digit and at most `most`. -/
def number (most : Option Nat) : List Char → Except ReadError (Nat × List Char)
  | [] => .error .tooShort
  | c :: rest =>
    if (digit? c).isNone then .error .invalid else digitsOnto 0 most (c :: rest)

/-- A number of one or two digits behind blanks, between `low` and `high`. -/
def field (low high : Nat) (text : List Char) : Except ReadError (Nat × List Char) := do
  let (n, rest) ← number (some 2) (trimLeft text)
  if low ≤ n ∧ n ≤ high then .ok (n, rest) else .error .outOfRange

/-- A year behind blanks: up to four digits, or a sign and any number of digits. -/
def year (text : List Char) : Except ReadError (Int × List Char) := do
  let (n, rest) ← match trimLeft text with
    | '-' :: rest => do
      let (n, rest) ← number none rest
      .ok (-(n : Int), rest)
    | '+' :: rest => do
      let (n, rest) ← number none rest
      .ok ((n : Int), rest)
    | text => do
      let (n, rest) ← number (some 4) text
      .ok ((n : Int), rest)
  if -2147483648 ≤ n ∧ n ≤ 2147483647 then .ok (n, rest) else .error .outOfRange

/-- The mark `c` behind blanks. -/
def mark (c : Char) (text : List Char) : Except ReadError (List Char) :=
  match trimLeft text with
  | [] => .error .tooShort
  | d :: rest => if d = c then .ok rest else .error .invalid

/-- The mark between a date and a time. -/
def between : List Char → Except ReadError (List Char)
  | [] => .error .tooShort
  | c :: rest => if c = 'T' ∨ c = 't' ∨ c = ' ' then .ok rest else .error .invalid

/-- Nanoseconds behind a point, if there is one: nine digits count, more are passed over. -/
def fraction : List Char → Except ReadError (Nat × List Char)
  | '.' :: rest => do
    let (n, after) ← number (some 9) rest
    let used := rest.length - after.length
    .ok (n * Nat.pow 10 (9 - used), after.dropWhile fun c => (digit? c).isSome)
  | text => .ok (0, text)

/-- Two digits of an offset. -/
def twoDigits : List Char → Except ReadError ((Nat × Nat) × List Char)
  | [] => .error .tooShort
  | [c] => .error (if c.utf8Size < 2 then .tooShort else .invalid)
  | a :: b :: rest =>
    match digit? a, digit? b with
    | some x, some y => .ok ((x, y), rest)
    | _, _ => .error .invalid

/-- Hours and minutes of an offset, in seconds. -/
def offsetSize (text : List Char) : Except ReadError (Nat × List Char) := do
  let ((a, b), rest) ← twoDigits text
  let ((c, d), rest) ← twoDigits (rest.dropWhile fun c => c = ':' || isBlank c)
  if 6 ≤ c then .error .outOfRange
  else .ok ((a * 10 + b) * 3600 + (c * 10 + d) * 60, rest)

/-- Whether a text starts with `UTC`, in any case. -/
def startsUtc (text : List Char) : Bool :=
  (text.take 3).map Char.toUpper == ['U', 'T', 'C']

/-- The offset from UTC, in seconds. -/
def offset (text : List Char) : Except ReadError (Int × List Char) :=
  if startsUtc text then .ok (0, text.drop 3)
  else match text with
    | [] => .error .tooShort
    | c :: rest =>
      if c = 'Z' ∨ c = 'z' then .ok (0, rest)
      else if c = '+' then do
        let (n, rest) ← offsetSize rest
        .ok ((n : Int), rest)
      else if c = '-' ∨ c = Char.ofNat 0x2212 then do
        let (n, rest) ← offsetSize rest
        .ok (-(n : Int), rest)
      else .error .invalid

/-- The numbers that a text writes. -/
structure Fields where
  date : Date
  hour : Nat
  minute : Nat
  second : Nat
  nanos : Nat
  offset : Int

/-- The numbers of a text, from left to right. -/
def fields (text : List Char) : Except ReadError Fields := do
  let (year, text) ← year text
  let text ← mark '-' text
  let (month, text) ← field 1 12 text
  let text ← mark '-' text
  let (day, text) ← field 1 31 text
  let text ← between text
  let (hour, text) ← field 0 23 text
  let text ← mark ':' text
  let (minute, text) ← field 0 59 text
  let text ← mark ':' text
  let (second, text) ← field 0 60 text
  let (nanos, text) ← fraction text
  let (offset, text) ← offset (trimLeft text)
  if (trimLeft text).isEmpty then .ok ⟨⟨year, month, day⟩, hour, minute, second, nanos, offset⟩
  else .error .tooLong

/-- The nanoseconds of a field: second sixty is a leap second after second fifty-nine. -/
def Fields.subsecond (f : Fields) : Nat :=
  (if f.second = 60 then 1000000000 else 0) + f.nanos % 1000000000

theorem Fields.subsecond_lt (f : Fields) : f.subsecond < 2000000000 := by
  unfold Fields.subsecond
  split <;> omega

/-- The instant that the numbers name, in UTC. -/
def Fields.instant (f : Fields) : Except ReadError Instant :=
  if ¬ (yearInRange f.date.year ∧ f.date.valid) then .error .outOfRange
  else if 86400 ≤ f.offset.natAbs then .error .outOfRange
  else
    -- a leap second is kept as the end of the second before it
    let second := if f.second = 60 then 59 else f.second
    let clock : Int := f.hour * 3600 + f.minute * 60 + second
    let seconds := f.date.toDays * 86400 + clock - f.offset
    if yearInRange (Date.ofDays (seconds / 86400)).year then
      .ok ⟨seconds, f.subsecond, f.subsecond_lt⟩
    else .error .impossible

/-- **The reader** of instants. -/
def read (text : String) : Except ReadError Instant := do
  let f ← fields text.toList
  f.instant

end OrderDesk.Instant
