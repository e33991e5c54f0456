import OrderDesk.Json.Cursor
import OrderDesk.Text.Hex
import OrderDesk.Text.Utf8

/-!
# Strings in JSON texts

A string is read as bytes: raw bytes as they stand, escapes as the bytes of the characters they
name. Whether the bytes are well-formed UTF-8 is looked at once the closing quote is found. A string
that is passed over is not checked for that, nor are its surrogates.

## Main definitions

* `readText`: the reader
* `skipText`: passing over a string
-/

namespace OrderDesk.Json

open Text

/-- The value of a byte as a hexadecimal digit. -/
def hexValue? (byte : UInt8) : Option Nat :=
  (Hex.value? (Char.ofNat byte.toNat)).map Fin.val

/-- The value of four digits. -/
def fourDigits? (a b c d : UInt8) : Option Nat :=
  match hexValue? a, hexValue? b, hexValue? c, hexValue? d with
  | some w, some x, some y, some z => some (((w * 16 + x) * 16 + y) * 16 + z)
  | _, _, _, _ => none

/-- The number of a `\u` escape, behind the `u`. -/
def readHexEscape (c : Cursor) : Except Error (Nat × Cursor) :=
  match c.rest with
  | a :: b :: d :: e :: _ =>
    let c := c.advance.advance.advance.advance
    match fourDigits? a b d e with
    | some n => .ok (n, c)
    | none => c.fail .invalidEscape
  | _ => c.advance.advance.advance.fail .eofInString

/-- The bytes of a code point. -/
def codePointBytes (n : Nat) : List UInt8 :=
  String.utf8EncodeChar (Char.ofNat n)

/-- Passes over `byte`, which is needed for the second half of a pair of surrogates. -/
def pairMark (c : Cursor) (byte : UInt8) : Except Error Cursor :=
  match c.peek? with
  | none => c.fail .eofInString
  | some other =>
    if other == byte then .ok c.advance else c.advance.fail .unexpectedEndOfHexEscape

/-- The bytes of a `\u` escape; surrogates stand for one character in pairs. -/
def readCodePoint (c : Cursor) : Except Error (List UInt8 × Cursor) := do
  let (n, c) ← readHexEscape c
  if 0xDC00 ≤ n ∧ n ≤ 0xDFFF then c.fail .loneSurrogate
  else if n < 0xD800 ∨ 0xDBFF < n then .ok (codePointBytes n, c)
  else
    let c ← pairMark c Ascii.backslash
    let c ← pairMark c Ascii.lowerU
    let (m, c) ← readHexEscape c
    if m < 0xDC00 ∨ 0xDFFF < m then c.fail .loneSurrogate
    else .ok (codePointBytes (0x10000 + (n - 0xD800) * 0x400 + (m - 0xDC00)), c)

/-- The byte that a letter behind a backslash stands for. -/
def shortEscape? (byte : UInt8) : Option UInt8 :=
  if byte == 0x22 || byte == 0x5C || byte == 0x2F then some byte
  else if byte == 0x62 then some 0x08
  else if byte == 0x66 then some 0x0C
  else if byte == 0x6E then some 0x0A
  else if byte == 0x72 then some 0x0D
  else if byte == 0x74 then some 0x09
  else none

/-- The bytes of an escape, behind the backslash. -/
def readEscape (c : Cursor) : Except Error (List UInt8 × Cursor) :=
  match c.peek? with
  | none => c.fail .eofInString
  | some byte =>
    if byte == Ascii.lowerU then readCodePoint c.advance
    else match shortEscape? byte with
      | some b => .ok ([b], c.advance)
      | none => c.advance.fail .invalidEscape

/-- The bytes of a string up to its closing quote, onto those already read, newest first. Every
step takes a byte at least, so the bytes at the start bound their number. -/
def readBytes (read : List UInt8) : List UInt8 → Cursor → Except Error (List UInt8 × Cursor)
  | [], c => c.fail .eofInString
  | _ :: fuel, c =>
    match c.rest with
    | [] => c.fail .eofInString
    | byte :: _ =>
      if byte == Ascii.quote then .ok (read.reverse, c.advance)
      else if byte == Ascii.backslash then
        match readEscape c.advance with
        | .error e => .error e
        | .ok (bytes, c) => readBytes (bytes.reverse ++ read) fuel c
      else if byte < 0x20 then c.advance.fail .controlCharacter
      else readBytes (byte :: read) fuel c.advance

/-- The refusal of a string whose bytes are ill-formed, behind its closing quote. Its place is
counted back from there: one column for each byte from the ill-formed one on, as the string holds
them. -/
def illFormed (bytes : List UInt8) (behind : Cursor) : Error :=
  { behind.errorHere .invalidCodePoint with
    column := behind.column - (bytes.length - Utf8.soundLength bytes) }

/-- **The reader of strings**, behind the opening quote. -/
def readText (c : Cursor) : Except Error (String × Cursor) :=
  match readBytes [] c.rest c with
  | .error e => .error e
  | .ok (bytes, behind) =>
    match Utf8.toString? bytes with
    | some text => .ok (text, behind)
    | none => .error (illFormed bytes behind)

/-- Passes over an escape, behind the backslash. -/
def skipEscape (c : Cursor) : Except Error Cursor :=
  match c.peek? with
  | none => c.fail .eofInString
  | some byte =>
    if byte == Ascii.lowerU then
      match readHexEscape c.advance with
      | .ok (_, c) => .ok c
      | .error e => .error e
    else if (shortEscape? byte).isSome then .ok c.advance
    else c.advance.fail .invalidEscape

/-- Passes over the bytes of a string and its closing quote. -/
def skipBytes : List UInt8 → Cursor → Except Error Cursor
  | [], c => c.fail .eofInString
  | _ :: fuel, c =>
    match c.rest with
    | [] => c.fail .eofInString
    | byte :: _ =>
      if byte == Ascii.quote then .ok c.advance
      else if byte == Ascii.backslash then
        match skipEscape c.advance with
        | .error e => .error e
        | .ok c => skipBytes fuel c
      else if byte < 0x20 then c.fail .controlCharacter
      else skipBytes fuel c.advance

/-- **Passes over a string**, behind its opening quote. -/
def skipText (c : Cursor) : Except Error Cursor :=
  skipBytes c.rest c

end OrderDesk.Json
