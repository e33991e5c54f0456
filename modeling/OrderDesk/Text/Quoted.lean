import OrderDesk.Text.Hex
import OrderDesk.Text.Printable

/-!
# Quoted text

A text between double quotes for a message: quotes, backslashes and the usual controls by a
backslash, every other hidden character by its number in braces.
-/

namespace OrderDesk.Text

/-- One character of a quoted text. -/
def quotedChar (c : Char) : List Char :=
  match c with
  | '"' => ['\\', '"']
  | '\\' => ['\\', '\\']
  | '\n' => ['\\', 'n']
  | '\r' => ['\\', 'r']
  | '\t' => ['\\', 't']
  | _ =>
    if c.toNat = 0 then ['\\', '0']
    else if isVisible c then [c]
    else '\\' :: 'u' :: '{' :: ((Hex.ofNat c.toNat).toList ++ ['}'])

/-- A text between quotes. -/
def quoted (text : String) : String :=
  "\"" ++ String.ofList (text.toList.flatMap quotedChar) ++ "\""

end OrderDesk.Text
