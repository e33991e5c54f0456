import OrderDesk.Config.Basic
import OrderDesk.Config.Files
import OrderDesk.Toml.Document

/-!
# Layers of a configuration

A configuration is laid down in layers, the later over the earlier: the file of defaults, the file
of the mode of operation, the local file, and the environment. Only the first file must be there.

## Main definitions

* `Layer`: settings by their keys
* `Format.toml`, `Layer.ofFile`, `Layer.ofEnvironment`
* `merged`: the settings of all layers
* `load`: the configuration of files and environment
-/

namespace OrderDesk.Config

/-- **A layer**: settings by their keys, of which each may be a path. -/
abbrev Layer := List (String × Value)

/-! ## Keys -/

/-- Whether a character may stand in a name of a path. -/
def isKeyChar (c : Char) : Bool := c.isAlphanum || c == '_' || c == '-'

/-- Whether a character may stand around the number of a place. -/
def isKeyBlank (c : Char) : Bool := c == ' ' || c == '\t'

/-- A name of a path, and what follows it. -/
def takeName? (text : List Char) : Option (Step × List Char) :=
  let name := text.takeWhile isKeyChar
  if name.isEmpty then none else some (.name (String.ofList name), text.dropWhile isKeyChar)

/-- The number that digits write, behind a sign or not, if it fits in 64 bits. -/
def placeNumber? (negative : Bool) (digits : List Char) : Option Int :=
  let size : Nat := digits.foldl (fun n c => n * 10 + (c.toNat - 48)) 0
  if digits.isEmpty then none
  else if negative then if size ≤ 0x8000000000000000 then some (-(size : Int)) else none
  else if size < 0x8000000000000000 then some (size : Int)
  else none

/-- The number of a place behind its opening bracket, and what follows the closing one. -/
def takePlace? (text : List Char) : Option (Step × List Char) :=
  let text := text.dropWhile isKeyBlank
  let negative := text.head? == some '-'
  let text := if negative then text.tail else text
  match placeNumber? negative (text.takeWhile Char.isDigit),
      (text.dropWhile Char.isDigit).dropWhile isKeyBlank with
  | some index, ']' :: rest => some (.place index, rest)
  | _, _ => none

/-- The steps behind those already read, newest first. Every step takes a character at least, so the
characters at the start bound their number. -/
def keySteps? (read : List Step) : List Char → List Char → Option (List Step)
  | _, [] => some read.reverse
  | [], _ :: _ => none
  | _ :: fuel, mark :: rest =>
    let step :=
      if mark == '.' then takeName? rest
      else if mark == '[' then takePlace? rest
      else none
    match step with
    | some (step, rest) => keySteps? (step :: read) fuel rest
    | none => none

/-- **The path of a key**: names behind points and places in brackets. A key that is no path stands
for itself. -/
def keyPath (key : String) : List Step :=
  match takeName? key.toList with
  | none => [.name key]
  | some (step, rest) => (keySteps? [step] rest rest).getD [.name key]

/-- The settings with one more laid over them. -/
def lay (root : List (String × Value)) (key : String) (value : Value) : List (String × Value) :=
  Value.membersOf (some (value.put (keyPath key) (some (.table none root))))

/-- The settings with a layer laid over them. -/
def layAll (root : List (String × Value)) (layer : Layer) : List (String × Value) :=
  layer.foldl (fun root (key, value) => lay root key value) root

/-- **The settings of all layers**, the earlier ones first. -/
def merged (layers : List Layer) : List (String × Value) :=
  layers.foldl layAll []

/-! ## Files -/

/-- **The format of TOML files.** A mark of their encoding is passed over. -/
def Format.toml : Format where
  endings := ["toml"]
  read origin content :=
    (Toml.readDocument (Toml.dropMark content.toList)).map fun members =>
      members.map fun (k, v) => (k, .ofToml origin v)

/-- **The layer of a file**, if it is in its format. -/
def Layer.ofFile (format : Format) (path content : String) : Except Error Layer :=
  match format.read (.file path) content with
  | some layer => .ok layer
  | none => .error .malformed

/-- The layer of a file that may be missing. -/
def optionalLayer (formats : List Format) (files : Files) (name : String) : Except Error Layer :=
  match files.find? formats name with
  | some (format, path, content) => Layer.ofFile format path content
  | none => .ok []

/-- The layer of a file that must be there. -/
def requiredLayer (formats : List Format) (files : Files) (name : String) : Except Error Layer :=
  match files.find? formats name with
  | some (format, path, content) => Layer.ofFile format path content
  | none => .error (.noFile (directory ++ "/" ++ name))

/-! ## The environment -/

/-- What the names of settings in the environment start with, in small letters. -/
def marker : List Char := "hangar__".toList

/-- A name with points for its pairs of underscores. -/
def pointed : List Char → List Char
  | '_' :: '_' :: rest => '.' :: pointed rest
  | c :: rest => c :: pointed rest
  | [] => []

/-- The key of a variable, if it is a setting. -/
def variableKey? (name : String) : Option String :=
  let name := (Text.lower name).toList
  if marker.isPrefixOf name then some (String.ofList (pointed (name.drop marker.length))) else none

/-- **The layer of the environment**: all its settings are texts. -/
def Layer.ofEnvironment (environment : List (String × String)) : Layer :=
  environment.filterMap fun (name, value) =>
    (variableKey? name).map fun key => (key, .scalar .environment (.text value))

/-- The variable that names the mode of operation. -/
def modeVariable : String := "RUN_MODE"

/-- The mode of operation. -/
def mode (environment : List (String × String)) : String :=
  (environment.lookup modeVariable).getD "development"

/-- **All layers** of files and environment. -/
def layers (formats : List Format) (files : Files) (environment : List (String × String)) :
    Except Error (List Layer) := do
  let defaults ← requiredLayer formats files "default"
  -- only the file with the defaults has to be there
  let ofMode ← optionalLayer formats files (mode environment)
  let here ← optionalLayer formats files "local"
  .ok [defaults, ofMode, here, Layer.ofEnvironment environment]

/-- **The configuration of files and environment.** The files may be in any of the formats. -/
def load (formats : List Format) (files : Files) (environment : List (String × String)) :
    Except Error Config := do
  let layers ← layers formats files environment
  read (merged layers)

end OrderDesk.Config
