import OrderDesk.Decimal.Layout
import OrderDesk.Text.Quoted

/-!
# Refusals of the JSON reader

Why a text is refused, and where: the line, counted from one, the number of bytes of that line
read so far, and the way to the value that was being read.

## Main definitions

* `Cause`: the reasons, with their wording `Cause.message` and their `Cause.category`
* `Error`: a reason at a place
-/

namespace OrderDesk.Json

/-- **A number of a text**: a natural number below `2 ^ 64`, a negative integer of at least
`- 2 ^ 63` by its size, or anything else as a float. -/
inductive Number where
  | natural (size : Nat)
  | negative (size : Nat)
  | float (value : Float)
  deriving DecidableEq

/-- What stands where something else was expected. -/
inductive Found where
  | null
  | boolean (value : Bool)
  | number (value : Number)
  | text (value : String)
  | sequence
  | map
  deriving DecidableEq

/-- How a message names what was found. -/
def Found.describe : Found → String
  | null => "null"
  | boolean true => "boolean `true`"
  | boolean false => "boolean `false`"
  | number (.natural n) => "integer `" ++ toString n ++ "`"
  | number (.negative n) => "integer `-" ++ toString n ++ "`"
  | number (.float x) => "floating point `" ++ Decimal.written x ++ "`"
  | text s => "string " ++ Text.quoted s
  | sequence => "sequence"
  | map => "map"

/-- **The reasons of a refusal.** -/
inductive Cause where
  | eofInValue
  | eofInList
  | eofInObject
  | eofInString
  | expectedColon
  | expectedListCommaOrEnd
  | expectedObjectCommaOrEnd
  | expectedIdent
  | expectedValue
  | keyMustBeString
  | trailingComma
  | trailingCharacters
  | invalidNumber
  | numberOutOfRange
  | invalidEscape
  | controlCharacter
  | invalidCodePoint
  | loneSurrogate
  | unexpectedEndOfHexEscape
  | recursionLimit
  /-- A value of another kind than the one that is read. -/
  | invalidType (found : Found) (expected : String)
  /-- A value of the right kind that is not admitted. -/
  | invalidValue (found : Found) (expected : String)
  /-- A record written as a list that is too short. -/
  | invalidLength (found : Nat) (expected : String)
  /-- A name that is none of the names of its kind. -/
  | unknownVariant (found : String) (known : List String)
  | missingField (name : String)
  | duplicateField (name : String)
  /-- A text that is not a form of the value it should write. -/
  | malformed (reason : String)
  deriving DecidableEq

/-- The classes of refusals: the text ends too soon, it is not JSON, or the data does not fit. -/
inductive Category where
  | eof
  | syntactic
  | data
  deriving DecidableEq, Repr

namespace Cause

/-- The class of a reason. -/
def category : Cause → Category
  | eofInValue | eofInList | eofInObject | eofInString => .eof
  | invalidType .. | invalidValue .. | invalidLength .. | unknownVariant .. | missingField _
  | duplicateField _ | malformed _ => .data
  | _ => .syntactic

/-- Names between back quotes, parted by commas. -/
def nameList (names : List String) : String :=
  String.intercalate ", " (names.map fun name => "`" ++ name ++ "`")

/-- The wording of a reason. -/
def message : Cause → String
  | eofInValue => "EOF while parsing a value"
  | eofInList => "EOF while parsing a list"
  | eofInObject => "EOF while parsing an object"
  | eofInString => "EOF while parsing a string"
  | expectedColon => "expected `:`"
  | expectedListCommaOrEnd => "expected `,` or `]`"
  | expectedObjectCommaOrEnd => "expected `,` or `\x7d`"
  | expectedIdent => "expected ident"
  | expectedValue => "expected value"
  | keyMustBeString => "key must be a string"
  | trailingComma => "trailing comma"
  | trailingCharacters => "trailing characters"
  | invalidNumber => "invalid number"
  | numberOutOfRange => "number out of range"
  | invalidEscape => "invalid escape"
  | controlCharacter =>
    "control character (\\u0000-\\u001F) found while parsing a string"
  | invalidCodePoint => "invalid unicode code point"
  | loneSurrogate => "lone leading surrogate in hex escape"
  | unexpectedEndOfHexEscape => "unexpected end of hex escape"
  | recursionLimit => "recursion limit exceeded"
  | invalidType found expected => "invalid type: " ++ found.describe ++ ", expected " ++ expected
  | invalidValue found expected => "invalid value: " ++ found.describe ++ ", expected " ++ expected
  | invalidLength n expected => "invalid length " ++ toString n ++ ", expected " ++ expected
  | unknownVariant found known =>
    "unknown variant `" ++ found ++ "`, expected one of " ++ nameList known
  | missingField name => "missing field `" ++ name ++ "`"
  | duplicateField name => "duplicate field `" ++ name ++ "`"
  | malformed reason => reason

end Cause

/-- A step on the way to a value: into a member or into an element. -/
inductive PathStep where
  | member (name : String)
  | element (index : Nat)
  deriving DecidableEq, Repr

/-- **A refusal**: its reason, its place and the way to the value that was being read. -/
structure Error where
  cause : Cause
  line : Nat
  column : Nat
  path : List PathStep
  deriving DecidableEq

namespace Error

/-- The same refusal, one level further out. -/
def within (step : PathStep) (e : Error) : Error :=
  { e with path := step :: e.path }

/-- The wording, with the place. -/
def message (e : Error) : String :=
  e.cause.message ++ " at line " ++ toString e.line ++ " column " ++ toString e.column

/-- A step behind the text of those before it: members are parted by points. -/
def appendStep (way : String) : PathStep → String
  | .member name => if way.isEmpty then name else way ++ "." ++ name
  | .element index => way ++ "[" ++ toString index ++ "]"

/-- The way to the value as text; empty for the outermost value. -/
def pathText (e : Error) : String :=
  e.path.foldl appendStep ""

/-- The wording, with the way to the value in front unless it is the outermost one. -/
def messageWithPath (e : Error) : String :=
  if e.path.isEmpty then e.message else e.pathText ++ ": " ++ e.message

end Error

/-- A result of a step within a member or an element. -/
def inside {α : Type} (step : PathStep) : Except Error α → Except Error α
  | .ok a => .ok a
  | .error e => .error (e.within step)

end OrderDesk.Json
