/-!
# Blanks, comments and line ends

What may stand between the parts of a TOML text. A line ends with a line feed, which a carriage
return may precede; a comment runs to the end of its line.

## Main definitions

* `skipBlanks`, `skipGaps`: blanks within a line, and gaps of any number of lines
* `endLine`: the end of a line
-/

namespace OrderDesk.Toml

/-- Whether a character is a blank within a line. -/
def isBlank (c : Char) : Bool := c == ' ' || c == '\t'

/-- **A control character**, which may stand neither in a comment nor in a text. -/
def isControl (c : Char) : Bool := (c.toNat < 32 && c != '\t') || c.toNat == 127

/-- What follows the blanks in front. -/
def skipBlanks (text : List Char) : List Char := text.dropWhile isBlank

/-- What follows the line end in front. -/
def newline? : List Char → Option (List Char)
  | '\n' :: rest => some rest
  | '\r' :: '\n' :: rest => some rest
  | _ => none

/-- What follows the blanks, comments and line ends in front; whether a comment has begun. -/
def skipGapsFrom (inComment : Bool) : List Char → List Char
  | [] => []
  | '\n' :: rest => skipGapsFrom false rest
  | '\r' :: '\n' :: rest => skipGapsFrom false rest
  | c :: rest =>
    if inComment then if isControl c then c :: rest else skipGapsFrom true rest
    else if isBlank c then skipGapsFrom false rest
    else if c == '#' then skipGapsFrom true rest
    else c :: rest

/-- **What follows a gap**: blanks, comments and line ends. -/
def skipGaps (text : List Char) : List Char := skipGapsFrom false text

/-- What follows the comment in front, up to the end of its line. -/
def skipComment : List Char → List Char
  | '#' :: rest => rest.dropWhile fun c => !isControl c
  | text => text

/-- **What follows the end of a line**, or the end of the text. -/
def endLine (text : List Char) : Option (List Char) :=
  match skipComment (skipBlanks text) with
  | [] => some []
  | rest => newline? rest

end OrderDesk.Toml
