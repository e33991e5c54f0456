import OrderDesk.Instant.Calendar

/-!
# Instants

A point in time: whole seconds since 1970-01-01T00:00:00Z and nanoseconds within the second. A
second count up to twice a second long is a leap second, written as second sixty.
-/

namespace OrderDesk

open Calendar

/-- **A point in time.** -/
structure Instant where
  seconds : Int
  nanos : Nat
  nanos_lt : nanos < 2000000000
  deriving DecidableEq

namespace Instant

/-- The first instant of 1970. -/
def epoch : Instant := ⟨0, 0, by decide⟩

instance : Inhabited Instant := ⟨epoch⟩

/-- `n` in decimal with at least `width` digits. -/
def padded (width n : Nat) : List Char :=
  let digits := Nat.toDigits 10 n
  List.replicate (width - digits.length) '0' ++ digits

/-- A year of four digits; outside 0 to 9999 with a sign. -/
def yearChars (year : Int) : List Char :=
  if 0 ≤ year ∧ year ≤ 9999 then padded 4 year.toNat
  else (if year < 0 then '-' else '+') :: padded 4 year.natAbs

/-- The fraction of a second: 0, 3, 6 or 9 digits, as few as are exact. -/
def fractionChars (nanos : Nat) : List Char :=
  if nanos = 0 then []
  else if nanos % 1000000 = 0 then '.' :: padded 3 (nanos / 1000000)
  else if nanos % 1000 = 0 then '.' :: padded 6 (nanos / 1000)
  else '.' :: padded 9 nanos

/-- A date as `2025-01-31`. -/
def dateChars (d : Date) : List Char :=
  yearChars d.year ++ '-' :: (padded 2 d.month ++ '-' :: padded 2 d.day)

/-- **The printed form**: RFC 3339 in UTC. -/
def toChars (t : Instant) : List Char :=
  let day := t.seconds / 86400
  let second := (t.seconds % 86400).toNat
  let leap := decide (1000000000 ≤ t.nanos)
  let nanos := if leap then t.nanos - 1000000000 else t.nanos
  let last := if leap then second % 60 + 1 else second % 60
  dateChars (Date.ofDays day) ++ 'T' ::
    (padded 2 (second / 3600) ++ ':' :: (padded 2 (second / 60 % 60) ++ ':' ::
      (padded 2 last ++ (fractionChars nanos ++ ['Z']))))

/-- The printed form. -/
def toText (t : Instant) : String :=
  String.ofList t.toChars

instance : ToString Instant := ⟨toText⟩

end Instant

end OrderDesk
