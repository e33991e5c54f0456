import OrderDesk.Toml.Members
import OrderDesk.Toml.Moment
import OrderDesk.Toml.Text

/-!
# The reader of values

Scalars are single words or texts; lists and tables in braces hold other values, over several lines
if need be, and may end in a comma. At most eighty brackets may be nested.

## Main definitions

* `readScalar`: a value that is no bracket
* `readValue`: any value
-/

namespace OrderDesk.Toml

/-- Whether a character belongs to a word. -/
def isWordChar (c : Char) : Bool := c.isAlphanum || "+-_.:".toList.contains c

/-- Whether a time follows a date, behind a blank. -/
def timeFollows (word rest : List Char) : Bool :=
  match date? word, rest with
  | some (_, []), ' ' :: c :: _ => isDigit c
  | _, _ => false

/-- The word in front, and what follows it. A date and a time with a blank between them are one. -/
def readWord (text : List Char) : List Char × List Char :=
  let word := text.takeWhile isWordChar
  let rest := text.dropWhile isWordChar
  if timeFollows word rest then
    let time := rest.tail.takeWhile isWordChar
    (word ++ ' ' :: time, rest.tail.dropWhile isWordChar)
  else (word, rest)

/-- **The scalar of a word.** -/
def scalar? (word : List Char) : Option Value :=
  if word = ['t', 'r', 'u', 'e'] then some (.boolean true)
  else if word = ['f', 'a', 'l', 's', 'e'] then some (.boolean false)
  else
    match integer? word with
    | some n => some (.integer n)
    | none =>
      match float? word with
      | some x => some (.float x)
      | none => (moment? word).map .moment

/-- **A value that is no bracket.** -/
def readScalar (text : List Char) : Read Value :=
  match readText? text with
  | some read => read.map fun (s, rest) => (.text (String.ofList s), rest)
  | none =>
    let (word, rest) := readWord text
    (scalar? word).map fun v => (v, rest)

/-- The items of a list onto those already read, newest first, up to the closing bracket. -/
def readItems (read : List Char → Read Value) (items : List Value) :
    List Char → List Char → Read (List Value)
  | [], _ => none
  | _ :: fuel, text =>
    match skipGaps text with
    | ']' :: rest => some (items.reverse, rest)
    | text =>
      match read text with
      | none => none
      | some (item, rest) =>
        match skipGaps rest with
        | ',' :: rest => readItems read (item :: items) fuel rest
        | ']' :: rest => some ((item :: items).reverse, rest)
        | _ => none

/-- A path of keys, an equals sign, and a value; `skip` takes out what may stand around the sign. -/
def readPair (skip : List Char → List Char) (read : List Char → Read Value) (text : List Char) :
    Read (List String × Value) :=
  match readPath text with
  | none => none
  | some (path, rest) =>
    match skip rest with
    | '=' :: rest => (read (skip rest)).map fun (v, rest) => ((path, v), rest)
    | _ => none

/-- The members of a table onto those already read, up to the closing brace. -/
def readMembers (read : List Char → Read Value) (members : Members) :
    List Char → List Char → Read Members
  | [], _ => none
  | _ :: fuel, text =>
    match skipGaps text with
    | '}' :: rest => some (members, rest)
    | text =>
      match readPair skipGaps read text with
      | none => none
      | some ((path, value), rest) =>
        match members.define path value with
        | none => none
        | some members =>
          match skipGaps rest with
          | ',' :: rest => readMembers read members fuel rest
          | '}' :: rest => some (members, rest)
          | _ => none

/-- A value with at most `depth` nested brackets. -/
def readNested : Nat → List Char → Read Value
  | 0, text => readScalar text
  | depth + 1, text =>
    match text with
    | '[' :: rest =>
      (readItems (readNested depth) [] text rest).map fun (items, rest) => (.list items, rest)
    | '{' :: rest =>
      (readMembers (readNested depth) (.empty .opened) text rest).map fun (members, rest) =>
        (members.toValue, rest)
    | _ => readScalar text

/-- How many brackets may be nested. -/
def maxDepth : Nat := 80

/-- **Any value.** -/
def readValue (text : List Char) : Read Value := readNested maxDepth text

end OrderDesk.Toml
