import OrderDesk.Instant.Basic
import OrderDesk.Toml.Number

/-!
# Dates and times

A date, a time, or both with or without an offset. Each has one written form: a `T` between date and
time, a `Z` for no offset, and as few places of a second as are exact, at most nine.

## Main definitions

* `date?`, `time?`, `offset?`: the parts
* `moment?`: a word as a date, a time, or both
-/

namespace OrderDesk.Toml

/-- The number of two digits, and what follows them. -/
def twoDigits? : List Char → Option (Nat × List Char)
  | a :: b :: rest => if isDigit a && isDigit b then some (ofDigits 10 [a, b], rest) else none
  | _ => none

/-- **A date**: its written form, and what follows it. -/
def date? : List Char → Option (List Char × List Char)
  | a :: b :: c :: d :: '-' :: rest =>
    if [a, b, c, d].all isDigit then
      match twoDigits? rest with
      | some (month, '-' :: rest) =>
        match twoDigits? rest with
        | some (day, rest) =>
          let date : Calendar.Date := ⟨ofDigits 10 [a, b, c, d], month, day⟩
          if date.valid then some (Instant.dateChars date, rest) else none
        | none => none
      | _ => none
    else none
  | _ => none

/-- A row of characters without the zeros at its end. -/
def dropTrailingZeros (digits : List Char) : List Char :=
  (digits.reverse.dropWhile (· == '0')).reverse

/-- The places of a second, behind their point: their written form, and what follows them. -/
def places? (text : List Char) : Option (List Char × List Char) :=
  let digits := text.takeWhile isDigit
  if digits.isEmpty then none
  else
    let kept := dropTrailingZeros (digits.take 9)
    some (if kept.isEmpty then ['0'] else kept, text.dropWhile isDigit)

/-- The seconds of a time, if it has any: their written form, and what follows them. -/
def seconds? : List Char → Option (List Char × List Char)
  | ':' :: rest =>
    match twoDigits? rest with
    | none => none
    | some (second, rest) =>
      if 60 < second then none
      else
        let written := ':' :: Instant.padded 2 second
        match rest with
        | '.' :: rest => (places? rest).map fun (places, rest) => (written ++ '.' :: places, rest)
        | rest => some (written, rest)
  | text => some ([], text)

/-- **A time**: its written form, and what follows it. -/
def time? (text : List Char) : Option (List Char × List Char) :=
  match twoDigits? text with
  | some (hour, ':' :: rest) =>
    match twoDigits? rest with
    | some (minute, rest) =>
      if 23 < hour ∨ 59 < minute then none
      else
        (seconds? rest).map fun (seconds, rest) =>
          ((Instant.padded 2 hour ++ ':' :: Instant.padded 2 minute) ++ seconds, rest)
    | none => none
  | _ => none

/-- **An offset** at the end of a word: its written form. -/
def offset? : List Char → Option (List Char)
  | [] => some []
  | [c] => if c == 'Z' || c == 'z' then some ['Z'] else none
  | c :: rest =>
    if c == '+' || c == '-' then
      match twoDigits? rest with
      | some (hour, ':' :: rest) =>
        match twoDigits? rest with
        | some (minute, []) =>
          if 23 < hour ∨ 59 < minute then none
          else
            -- no offset at all has no sign of its own
            let sign := if hour = 0 ∧ minute = 0 then '+' else c
            some (sign :: (Instant.padded 2 hour ++ ':' :: Instant.padded 2 minute))
        | _ => none
      | _ => none
    else none

/-- **A word as a date, a time, or both**: its written form. -/
def moment? (word : List Char) : Option String :=
  match date? word with
  | none =>
    match time? word with
    | some (time, []) => some (String.ofList time)
    | _ => none
  | some (date, []) => some (String.ofList date)
  | some (date, c :: rest) =>
    if c == 'T' || c == 't' || c == ' ' then
      match time? rest with
      | none => none
      | some (time, rest) =>
        (offset? rest).map fun offset => String.ofList (date ++ 'T' :: (time ++ offset))
    else none

end OrderDesk.Toml
