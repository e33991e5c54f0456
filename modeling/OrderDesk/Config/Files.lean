import OrderDesk.Config.Value

/-!
# Files of a configuration

The files stand in the directory `config`, and each has an ending of its format. A layer names its
file without the ending, by a path from that directory; such a path may lead out of the directory
and back again.

## Main definitions

* `Format`: the endings of a format, and how its files are read
* `Files`: the files
* `Files.at?`: the file that a path leads to
* `Files.find?`: the file of a layer
-/

namespace OrderDesk.Config

/-- **A format of files**: the endings of their names, and the settings of a text in this format. -/
structure Format where
  endings : List String
  read : Origin → String → Option (List (String × Value))

/-- **The files**: their contents by their paths in the directory, each a list of names. -/
abbrev Files := List (List String × String)

/-- The directory of the files. -/
def directory : String := "config"

/-- The names of a path, between its slashes. -/
def names (path : String) : List String := (path.toList.splitOn '/').map String.ofList

/-- Whether a name stays where it is. -/
def stays (name : String) : Bool := name == "" || name == "."

/-- **The ending of a name**: what stands behind its last point. A point in front ends nothing. -/
def ending? (name : String) : Option String :=
  let ending := (name.toList.reverse.takeWhile (· != '.')).reverse
  if ending.length + 1 < name.toList.length then some (String.ofList ending) else none

/-- The endings of all formats, each with its format, in the order in which they are tried. -/
def endings (formats : List Format) : List (String × Format) :=
  formats.flatMap fun format => format.endings.map fun ending => (ending, format)

namespace Files

/-- Whether a path from the place around the directory leads to a directory. -/
def isDirectory (files : Files) (place : List String) : Bool :=
  place.isEmpty || place == [directory]
    || files.any fun (path, _) => place.isPrefixOf (directory :: path.dropLast)

/-- The directory that names lead to, one after another; two points lead back. -/
def walk (files : Files) (place : List String) : List String → Option (List String)
  | [] => some place
  | name :: rest =>
    if stays name then walk files place rest
    else if name == ".." then
      if place.isEmpty then none else walk files place.dropLast rest
    else if files.isDirectory (place ++ [name]) then walk files (place ++ [name]) rest
    else none

/-- **The content of the file that a path leads to**, which must end with the name of the file. -/
def at? (files : Files) (path : List String) : Option String :=
  match path.getLast? with
  | none => none
  | some name =>
    match files.walk [] path.dropLast with
    | some (top :: place) =>
      if top == directory then files.lookup (place ++ [name]) else none
    | _ => none

end Files

/-- The path of a layer as it is written. -/
def writtenPath (layer : String) : List String := directory :: names layer

/-- The path of a layer without the names that stay. -/
def pathOf (layer : String) : List String := (writtenPath layer).filter fun name => !stays name

/-- The path of a layer with an ending, unless it leads back at its end. -/
def pathWith? (layer ending : String) : Option (List String) :=
  match (pathOf layer).getLast? with
  | none | some ".." => none
  | some name => some ((pathOf layer).dropLast ++ [name ++ "." ++ ending])

/-- A path as messages show it. -/
def shown (path : List String) : String := "/".intercalate path

namespace Files

/-- The file of a layer with an ending, as the path that messages show and its content. -/
def withEnding? (files : Files) (layer ending : String) : Option (String × String) :=
  match pathWith? layer ending with
  | none => none
  | some path => (files.at? path).map fun content => (shown path, content)

/-- **The file of a layer**, with its format, the path that messages show, and its content: the one
of just this name, or the first one with an ending of a format. A file of just this name must have
such an ending. -/
def find? (formats : List Format) (files : Files) (layer : String) :
    Option (Format × String × String) :=
  match files.at? (writtenPath layer) with
  | some content =>
    match (pathOf layer).getLast?.bind ending? with
    | none => none
    | some ending =>
      ((endings formats).lookup ending).map fun format => (format, shown (pathOf layer), content)
  | none =>
    (endings formats).findSome? fun (ending, format) =>
      (files.withEnding? layer ending).map fun (path, content) => (format, path, content)

end Files

end OrderDesk.Config
