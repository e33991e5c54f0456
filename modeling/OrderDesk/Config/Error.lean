import OrderDesk.Config.Value

/-!
# Failing configurations

What makes a configuration unusable, and under which key.

## Main definitions

* `keyText`: keys of settings within others
* `Error`, `Error.message`, `Error.within`
-/

namespace OrderDesk.Config

/-- The steps behind the first one of a key. -/
def stepsText : List Step → String
  | [] => ""
  | .name name :: rest => "." ++ name ++ stepsText rest
  | .place index :: rest => "[" ++ toString index ++ "]" ++ stepsText rest

/-- **The text of a key**: names with points between them, places in brackets. -/
def keyText : List Step → String
  | .name name :: rest => name ++ stepsText rest
  | steps => stepsText steps

/-- **What makes a configuration unusable.** -/
inductive Error where
  /-- The file that must be there is not. -/
  | noFile (name : String)
  /-- A file that is not in its format. -/
  | malformed
  /-- A setting that must be there is not. -/
  | missing (key : List Step)
  /-- A setting of another type. -/
  | mistyped (found expected : String) (origin : Option Origin) (key : List Step)
  /-- A setting that is refused in words. -/
  | refused (reason : String) (key : List Step)
  deriving DecidableEq, Repr

namespace Error

/-- The same error, seen from the setting around. -/
def within (step : Step) : Error → Error
  | missing key => missing (step :: key)
  | mistyped found expected origin key => mistyped found expected origin (step :: key)
  | refused reason key => refused reason (step :: key)
  | e => e

/-- The wording of the key of a refused setting. -/
def keyPhrase (key : List Step) : String :=
  if key.isEmpty then "" else " for key `" ++ keyText key ++ "`"

/-- The wording of the origin of a refused setting. -/
def originPhrase : Option Origin → String
  | some origin => " in " ++ origin.label
  | none => ""

/-- The wording of an error. -/
def message : Error → String
  | noFile name => "configuration file \"" ++ name ++ "\" not found"
  | malformed => "malformed configuration file"
  | missing key => "missing configuration field \"" ++ keyText key ++ "\""
  | mistyped found expected origin key =>
    "invalid type: " ++ found ++ ", expected " ++ expected ++ keyPhrase key ++ originPhrase origin
  | refused reason key => reason ++ keyPhrase key

end Error

end OrderDesk.Config
