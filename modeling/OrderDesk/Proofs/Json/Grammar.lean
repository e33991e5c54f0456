import OrderDesk.Json.Skip
import OrderDesk.Proofs.Text.Hex

/-!
# The grammar of JSON texts

What a JSON text may look like, over characters and whoever reads it: blanks between tokens, the
spellings of strings, numbers, and values within brackets to any depth. Where a value matters to its
reader, the grammar says what is spelled: a string with its characters, an object with the names and
the texts of its members.

## Main definitions

* `Blanks`: what may stand between tokens
* `CharForm`, `Spelled`, `Quotes`: the spellings of a character and of a string
* `StringText`, `NumberText`: strings and numbers, whatever they stand for
* `Wellformed`: values, and what stands within brackets
* `MembersText`, `ObjectText`: objects with the members that they spell

## Main results

* `Quotes.stringText`: the spelling of a string is a string
-/

namespace OrderDesk.Json

open Text

/-- **Blanks** between tokens. -/
def Blanks (cs : List Char) : Prop :=
  ∀ c ∈ cs, c = ' ' ∨ c = '\t' ∨ c = '\n' ∨ c = '\r'

/-! ## Strings -/

/-- **Four digits** that write a number. -/
inductive FourDigits : List Char → Nat → Prop
  | mk {a b c d : Char} {w x y z : Fin 16} (first : Hex.Writes a w) (second : Hex.Writes b x)
    (third : Hex.Writes c y) (fourth : Hex.Writes d z) :
    FourDigits [a, b, c, d] (((w.val * 16 + x.val) * 16 + y.val) * 16 + z.val)

/-- The letters of the short escapes, with what they stand for. -/
def shortEscapes : List (Char × Char) :=
  [('"', '"'), ('\\', '\\'), ('/', '/'), ('b', '\x08'), ('f', '\x0c'), ('n', '\n'), ('r', '\r'),
    ('t', '\t')]

/-- **A character that may stand for itself** in a string. -/
structure Plain (c : Char) : Prop where
  printable : 0x20 ≤ c.toNat
  ne_quote : c ≠ '"'
  ne_backslash : c ≠ '\\'

/-- **The forms of a character** in a string: itself, a short escape, its number, or the numbers of
a pair of surrogates. -/
inductive CharForm (c : Char) : List Char → Prop
  | plain (plain : Plain c) : CharForm c [c]
  | short {letter : Char} (mem : (letter, c) ∈ shortEscapes) : CharForm c ['\\', letter]
  | number {ds : List Char} (digits : FourDigits ds c.toNat) : CharForm c ('\\' :: 'u' :: ds)
  | pair {hs ls : List Char} (above : 0x10000 ≤ c.toNat)
    (high : FourDigits hs (0xD800 + (c.toNat - 0x10000) / 0x400))
    (low : FourDigits ls (0xDC00 + (c.toNat - 0x10000) % 0x400)) :
    CharForm c ('\\' :: 'u' :: (hs ++ '\\' :: 'u' :: ls))

/-- **A text spelled** between quotes, each character in any of its forms. -/
inductive Spelled : List Char → List Char → Prop
  | nil : Spelled [] []
  | cons {c : Char} {form cs forms : List Char} (head : CharForm c form) (tail : Spelled cs forms) :
    Spelled (c :: cs) (form ++ forms)

/-- **The spellings of a string.** -/
inductive Quotes (s : String) : List Char → Prop
  | mk {body : List Char} (spelled : Spelled s.toList body) : Quotes s ('"' :: (body ++ ['"']))

/-- What may stand between quotes, whether the surrogates pair or not. -/
inductive Unquoted : List Char → Prop
  | nil : Unquoted []
  | plain {c : Char} {cs : List Char} (plain : Plain c) (tail : Unquoted cs) : Unquoted (c :: cs)
  | short {letter c : Char} {cs : List Char} (mem : (letter, c) ∈ shortEscapes)
    (tail : Unquoted cs) : Unquoted ('\\' :: letter :: cs)
  | number {ds cs : List Char} {n : Nat} (digits : FourDigits ds n) (tail : Unquoted cs) :
    Unquoted ('\\' :: 'u' :: (ds ++ cs))

/-- **Strings.** -/
inductive StringText : List Char → Prop
  | mk {body : List Char} (unquoted : Unquoted body) : StringText ('"' :: (body ++ ['"']))

theorem Spelled.unquoted {text body : List Char} (h : Spelled text body) : Unquoted body := by
  induction h with
  | nil => exact .nil
  | cons head tail ih =>
    cases head with
    | plain hplain => exact .plain hplain ih
    | short mem => exact .short mem ih
    | number digits => exact .number digits ih
    | pair above high low =>
      simpa using Unquoted.number high (.number low ih)

theorem Quotes.stringText {s : String} {text : List Char} (h : Quotes s text) :
    StringText text := by
  obtain ⟨spelled⟩ := h
  exact .mk spelled.unquoted

/-! ## Numbers -/

/-- **Digits**, one at least. -/
structure Digits (cs : List Char) : Prop where
  ne_nil : cs ≠ []
  isDigit : ∀ c ∈ cs, c.isDigit = true

/-- The whole part of a number: a zero in front stands alone. -/
inductive WholeText : List Char → Prop
  | zero : WholeText ['0']
  | digits {cs : List Char} (digits : Digits cs) (head : cs.head? ≠ some '0') : WholeText cs

/-- The places behind the point, if there are any. -/
inductive FractionText : List Char → Prop
  | none : FractionText []
  | places {cs : List Char} (digits : Digits cs) : FractionText ('.' :: cs)

/-- The exponent, if there is one. -/
inductive ExponentText : List Char → Prop
  | none : ExponentText []
  | power {mark : Char} {sign cs : List Char} (marks : mark = 'e' ∨ mark = 'E')
    (signs : sign = [] ∨ sign = ['+'] ∨ sign = ['-']) (digits : Digits cs) :
    ExponentText (mark :: (sign ++ cs))

/-- **Numbers.** -/
inductive NumberText : List Char → Prop
  | mk {sign cs ds es : List Char} (signs : sign = [] ∨ sign = ['-']) (whole : WholeText cs)
    (fraction : FractionText ds) (exponent : ExponentText es) :
    NumberText (sign ++ (cs ++ (ds ++ es)))

/-! ## Values -/

/-- The character that opens a bracket. -/
def Bracket.openChar : Bracket → Char
  | .list => '['
  | .object => '{'

/-- The character that closes a bracket. -/
def Bracket.closeChar : Bracket → Char
  | .list => ']'
  | .object => '}'

/-- What parts an item from the one before it. -/
def comma (first : Bool) : List Char :=
  if first then [] else [',']

/-- What stands in front of the value of an item: the key of a member. -/
inductive Label : Bracket → List Char → Prop
  | list : Label .list []
  | object {cs ws : List Char} (key : StringText cs) (blanks : Blanks ws) :
    Label .object (cs ++ (ws ++ [':']))

/-- A portion of a JSON text: a value, or what stands within a bracket from the first item or from a
later one on, with the closing bracket. -/
inductive Portion where
  | value
  | within (bracket : Bracket) (first : Bool)

/-- **Well-formed portions of a JSON text.** -/
inductive Wellformed : Portion → List Char → Prop
  | word {cs : List Char} (mem : cs ∈ ["null".toList, "true".toList, "false".toList]) :
    Wellformed .value cs
  | number {cs : List Char} (number : NumberText cs) : Wellformed .value cs
  | string {cs : List Char} (string : StringText cs) : Wellformed .value cs
  | bracket {b : Bracket} {cs : List Char} (inner : Wellformed (.within b true) cs) :
    Wellformed .value (b.openChar :: cs)
  | close {b : Bracket} {first : Bool} {ws : List Char} (blanks : Blanks ws) :
    Wellformed (.within b first) (ws ++ [b.closeChar])
  | item {b : Bracket} {first : Bool} {ws gap cs lead vs rest : List Char} (before : Blanks ws)
    (behind : Blanks gap) (label : Label b cs) (between : Blanks lead)
    (value : Wellformed .value vs) (others : Wellformed (.within b false) rest) :
    Wellformed (.within b first) (ws ++ (comma first ++ (gap ++ (cs ++ (lead ++ (vs ++ rest))))))

/-- **The members of an object**, from the first one or from a later one on, with the closing brace:
each with its name, in any spelling, and the text of its value. -/
inductive MembersText : Bool → List (String × List Char) → List Char → Prop
  | close {first : Bool} {ws : List Char} (blanks : Blanks ws) : MembersText first [] (ws ++ ['}'])
  | member {first : Bool} {name : String} {vs : List Char} {members : List (String × List Char)}
    {ws gap key middle lead rest : List Char} (before : Blanks ws) (behind : Blanks gap)
    (quotes : Quotes name key) (between : Blanks middle) (ahead : Blanks lead)
    (others : MembersText false members rest) :
    MembersText first ((name, vs) :: members)
      (ws ++ (comma first ++ (gap ++ (key ++ (middle ++ ':' :: (lead ++ (vs ++ rest)))))))

/-- **An object** with its members. -/
inductive ObjectText (members : List (String × List Char)) : List Char → Prop
  | mk {inner : List Char} (within : MembersText true members inner) :
    ObjectText members ('{' :: inner)

end OrderDesk.Json
