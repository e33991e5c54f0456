/-!
# Blank characters

The characters with the Unicode property `White_Space`, and trimming by it.
-/

namespace OrderDesk.Text

/-- **A blank** is a character with the property `White_Space`. -/
def isBlank (c : Char) : Bool :=
  let n := c.toNat
  (9 ≤ n && n ≤ 13) || n == 0x20 || n == 0x85 || n == 0xA0 || n == 0x1680
    || (0x2000 ≤ n && n ≤ 0x200A) || n == 0x2028 || n == 0x2029 || n == 0x202F || n == 0x205F
    || n == 0x3000

/-- A text without the blanks it starts with. -/
def trimLeft (text : List Char) : List Char :=
  text.dropWhile isBlank

/-- Whether a text holds nothing but blanks. -/
def allBlank (text : String) : Bool :=
  text.toList.all isBlank

end OrderDesk.Text
