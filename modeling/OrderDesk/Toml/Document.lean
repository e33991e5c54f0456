import OrderDesk.Toml.Reader

/-!
# TOML texts

A text is a row of lines: headers, each of which opens a table, and values at paths of keys in the
table opened last.

## Main definitions

* `readDocument`: the members of the whole text
-/

namespace OrderDesk.Toml

/-- **What was read so far**: all members, and the header of the table opened last. -/
structure Draft where
  members : Members
  header : List String

/-- A header, behind its opening brackets: the path up to the closing ones. -/
def readHeader (closing : List Char) (text : List Char) : Read (List String) :=
  match readPath text with
  | none => none
  | some (path, rest) =>
    if closing.isPrefixOf rest then some (path, rest.drop closing.length) else none

/-- **One line** that is not empty, up to its end. -/
def readLine (d : Draft) (text : List Char) : Read Draft :=
  match text with
  | '[' :: '[' :: rest =>
    match readHeader [']', ']'] rest with
    | none => none
    | some (header, rest) =>
      (d.members.openItem header).map fun members => (⟨members, header⟩, rest)
  | '[' :: rest =>
    match readHeader [']'] rest with
    | none => none
    | some (header, rest) =>
      (d.members.openTable header).map fun members => (⟨members, header⟩, rest)
  | _ =>
    match readPair skipBlanks readValue text with
    | none => none
    | some ((path, value), rest) =>
      (d.members.defineBelow d.header path value).map fun members => ({ d with members }, rest)

/-- Lines until the text ends. -/
def readLines (d : Draft) : List Char → List Char → Option Draft
  | fuel, text =>
    match skipGaps text, fuel with
    | [], _ => some d
    | _ :: _, [] => none
    | line, _ :: fuel =>
      match readLine d line with
      | none => none
      | some (d, rest) =>
        match endLine rest with
        | none => none
        | some rest => readLines d fuel rest

/-- A text without the mark of its encoding. -/
def dropMark : List Char → List Char
  | '\uFEFF' :: rest => rest
  | text => text

/-- **The members of a text**, if it is one. -/
def readDocument (text : List Char) : Option (List (String × Value)) :=
  let text := dropMark text
  (readLines ⟨.empty .opened, []⟩ text text).map fun d => Node.toValue.membersValue d.members.nodes

end OrderDesk.Toml
