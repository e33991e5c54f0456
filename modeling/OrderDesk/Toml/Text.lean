import OrderDesk.Text.Hex
import OrderDesk.Toml.Blank

/-!
# Texts and keys

A text stands between quotes: single ones take it as it is, double ones allow escapes; three of
either allow line ends, which are kept as they are. A key is a bare word or a text of one line, and
up to eighty of them with points between them are a path.

## Main definitions

* `readText?`: a text of any of the four kinds
* `readKey`, `readPath`
-/

namespace OrderDesk.Toml

open OrderDesk.Text

/-- What was read, and what follows it. -/
abbrev Read (α : Type) := Option (α × List Char)

/-- One more character in front of a text that is still to be read. -/
def prepend (c : Option Char) (read : Read (List Char)) : Read (List Char) :=
  match c, read with
  | some c, some (text, rest) => some (c :: text, rest)
  | _, _ => none

/-- The character of a hexadecimal numeral. -/
def charOfHex? (digits : List Char) : Option Char :=
  match digits.mapM Hex.value? with
  | none => none
  | some values =>
    let n := values.foldl (fun n d => n * 16 + d.val) 0
    if h : n.isValidChar then some (Char.ofNatAux n h) else none

/-- The character of an escape of one letter. -/
def escaped? (c : Char) : Option Char :=
  match c with
  | 'b' => some '\x08'
  | 't' => some '\t'
  | 'n' => some '\n'
  | 'f' => some '\x0C'
  | 'r' => some '\r'
  | 'e' => some '\x1B'
  | '"' => some '"'
  | '\\' => some '\\'
  | _ => none

/-- A text of one line with escapes, behind its opening quote. -/
def readBasic : List Char → Read (List Char)
  | [] => none
  | '"' :: rest => some ([], rest)
  | '\\' :: 'x' :: a :: b :: rest => prepend (charOfHex? [a, b]) (readBasic rest)
  | '\\' :: 'u' :: a :: b :: c :: d :: rest =>
    prepend (charOfHex? [a, b, c, d]) (readBasic rest)
  | '\\' :: 'U' :: a :: b :: c :: d :: e :: f :: g :: h :: rest =>
    prepend (charOfHex? [a, b, c, d, e, f, g, h]) (readBasic rest)
  | '\\' :: c :: rest => prepend (escaped? c) (readBasic rest)
  | c :: rest => if isControl c || c == '\\' then none else prepend (some c) (readBasic rest)

/-- A text of one line without escapes, behind its opening quote. -/
def readLiteral : List Char → Read (List Char)
  | [] => none
  | '\'' :: rest => some ([], rest)
  | c :: rest => if isControl c then none else prepend (some c) (readLiteral rest)

/-- Whether a backslash stands at the end of its line. -/
def endsLine (text : List Char) : Bool := (newline? (skipBlanks text)).isSome

/-- A text of several lines with escapes, behind its opening quotes. A backslash at the end of a
line takes out all blanks and line ends that follow; `trimming` is set behind it. Up to two quotes
may stand in front of the closing ones. -/
def readBasicLines (trimming : Bool) : List Char → Read (List Char)
  | [] => none
  | '"' :: '"' :: '"' :: '"' :: '"' :: rest => some (['"', '"'], rest)
  | '"' :: '"' :: '"' :: '"' :: rest => some (['"'], rest)
  | '"' :: '"' :: '"' :: rest => some ([], rest)
  | '\r' :: '\n' :: rest =>
    if trimming then readBasicLines true rest
    else prepend (some '\r') (prepend (some '\n') (readBasicLines false rest))
  | '\\' :: 'x' :: a :: b :: rest => prepend (charOfHex? [a, b]) (readBasicLines false rest)
  | '\\' :: 'u' :: a :: b :: c :: d :: rest =>
    prepend (charOfHex? [a, b, c, d]) (readBasicLines false rest)
  | '\\' :: 'U' :: a :: b :: c :: d :: e :: f :: g :: h :: rest =>
    prepend (charOfHex? [a, b, c, d, e, f, g, h]) (readBasicLines false rest)
  | '\\' :: c :: rest =>
    if endsLine (c :: rest) then readBasicLines true rest
    else prepend (escaped? c) (readBasicLines false rest)
  | c :: rest =>
    if trimming && (isBlank c || c == '\n') then readBasicLines true rest
    else if (isControl c && c != '\n') || c == '\\' then none
    else prepend (some c) (readBasicLines false rest)

/-- A text of several lines without escapes, behind its opening quotes. -/
def readLiteralLines : List Char → Read (List Char)
  | [] => none
  | '\'' :: '\'' :: '\'' :: '\'' :: '\'' :: rest => some (['\'', '\''], rest)
  | '\'' :: '\'' :: '\'' :: '\'' :: rest => some (['\''], rest)
  | '\'' :: '\'' :: '\'' :: rest => some ([], rest)
  | '\r' :: '\n' :: rest => prepend (some '\r') (prepend (some '\n') (readLiteralLines rest))
  | c :: rest =>
    if isControl c && c != '\n' then none else prepend (some c) (readLiteralLines rest)

/-- A text without the line end that may follow its opening quotes. -/
def dropNewline (text : List Char) : List Char := (newline? text).getD text

/-- **A text of any kind**, if one is in front: what is read of it. -/
def readText? : List Char → Option (Read (List Char))
  | '"' :: '"' :: '"' :: rest => some (readBasicLines false (dropNewline rest))
  | '"' :: rest => some (readBasic rest)
  | '\'' :: '\'' :: '\'' :: rest => some (readLiteralLines (dropNewline rest))
  | '\'' :: rest => some (readLiteral rest)
  | _ => none

/-! ## Keys -/

/-- Whether a character may stand in a bare key. -/
def isBare (c : Char) : Bool := c.isAlphanum || c == '_' || c == '-'

/-- **A key.** -/
def readKey (text : List Char) : Read String :=
  match text with
  | '"' :: rest => (readBasic rest).map fun (key, rest) => (String.ofList key, rest)
  | '\'' :: rest => (readLiteral rest).map fun (key, rest) => (String.ofList key, rest)
  | _ =>
    let key := text.takeWhile isBare
    if key.isEmpty then none else some (String.ofList key, text.dropWhile isBare)

/-- A path of keys onto those already read, newest first. -/
def readPathOnto (keys : List String) : List Char → List Char → Read (List String)
  | [], _ => none
  | _ :: fuel, text =>
    match readKey (skipBlanks text) with
    | none => none
    | some (key, rest) =>
      match skipBlanks rest with
      | '.' :: rest => readPathOnto (key :: keys) fuel rest
      | rest => some ((key :: keys).reverse, rest)

/-- How many keys a path may have. -/
def maxPath : Nat := 80

/-- **A path of keys**, with what follows it and the blanks around. -/
def readPath (text : List Char) : Read (List String) :=
  match readPathOnto [] text text with
  | some (path, rest) => if path.length ≤ maxPath then some (path, rest) else none
  | none => none

end OrderDesk.Toml
