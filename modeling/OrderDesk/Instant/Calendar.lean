/-!
# The civil calendar

Days are counted from 1970-01-01, backwards too. A civil date is a year, a month and a day of the
Gregorian calendar extended in both directions.

## Main definitions

* `Date`: a civil date
* `Date.toDays`, `Date.ofDays`: between dates and day counts
-/

namespace OrderDesk.Calendar

/-- **A civil date.** -/
structure Date where
  year : Int
  month : Nat
  day : Nat
  deriving DecidableEq, Repr

/-- A leap year is divisible by four, and by four hundred if by a hundred. -/
def isLeap (year : Int) : Bool :=
  year % 4 = 0 && (year % 100 ≠ 0 || year % 400 = 0)

/-- The number of days of a month. -/
def daysInMonth (year : Int) (month : Nat) : Nat :=
  if month = 2 then (if isLeap year then 29 else 28)
  else if month = 4 ∨ month = 6 ∨ month = 9 ∨ month = 11 then 30
  else 31

/-- Whether the month exists and has the day. -/
def Date.valid (d : Date) : Bool :=
  1 ≤ d.month && d.month ≤ 12 && 1 ≤ d.day && d.day ≤ daysInMonth d.year d.month

/-- The day of a year that starts on the first of March. -/
def dayOfMarchYear (month day : Nat) : Nat :=
  (153 * ((month + 9) % 12) + 2) / 5 + (day - 1)

/-- **The day count of a date.** Years are counted from March, so that a leap day ends its year,
and in eras of four hundred years, which all have 146097 days. -/
def Date.toDays (d : Date) : Int :=
  let year := if d.month ≤ 2 then d.year - 1 else d.year
  let era := year / 400
  let yearOfEra := year % 400
  let dayOfEra := yearOfEra * 365 + yearOfEra / 4 - yearOfEra / 100 + dayOfMarchYear d.month d.day
  era * 146097 + dayOfEra - 719468

/-- **The date of a day count.** -/
def Date.ofDays (days : Int) : Date :=
  let shifted := days + 719468
  let era := shifted / 146097
  let dayOfEra := (shifted % 146097).toNat
  let yearOfEra :=
    (dayOfEra - dayOfEra / 1460 + dayOfEra / 36524 - dayOfEra / 146096) / 365
  let dayOfYear := dayOfEra - (365 * yearOfEra + yearOfEra / 4 - yearOfEra / 100)
  let shiftedMonth := (5 * dayOfYear + 2) / 153
  let day := dayOfYear - (153 * shiftedMonth + 2) / 5 + 1
  let month := if shiftedMonth < 10 then shiftedMonth + 3 else shiftedMonth - 9
  let year := era * 400 + yearOfEra
  ⟨if month ≤ 2 then year + 1 else year, month, day⟩

/-- The years that a date may have. -/
def yearInRange (year : Int) : Bool :=
  -262143 ≤ year && year ≤ 262142

end OrderDesk.Calendar
