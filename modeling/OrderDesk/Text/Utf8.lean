/-!
# UTF-8

Text travels as bytes. Here is the encoding of a list of characters and the strict decoder: it
refuses overlong forms, surrogates, code points above `U+10FFFF` and truncated sequences.

## Main definitions

* `Utf8.encode`: the bytes of a list of characters
* `Utf8.decode?`: the characters of well-formed bytes
* `Utf8.soundLength`: where ill-formed bytes go wrong
* `Utf8.ofString`, `Utf8.toString?`: the same between strings and bytes
-/

namespace OrderDesk.Text.Utf8

/-- The bytes of a text. -/
def encode (text : List Char) : List UInt8 :=
  text.flatMap String.utf8EncodeChar

/-- The bytes of a string. -/
def ofString (text : String) : List UInt8 :=
  encode text.toList

/-- **A continuation byte** has the form `10xxxxxx`. -/
def isContinuation (byte : UInt8) : Bool :=
  byte &&& 0xC0 == 0x80

/-- The six bits that a continuation byte carries. -/
def payload (byte : UInt8) : Nat :=
  (byte &&& 0x3F).toNat

/-- **The second byte of a sequence**: after some first bytes the range of a continuation byte is
narrower, which is what keeps out overlong forms, surrogates and numbers above the last one. -/
def isSecond (first byte : UInt8) : Bool :=
  if first == 0xE0 then 0xA0 ≤ byte && byte ≤ 0xBF
  else if first == 0xED then 0x80 ≤ byte && byte ≤ 0x9F
  else if first == 0xF0 then 0x90 ≤ byte && byte ≤ 0xBF
  else if first == 0xF4 then 0x80 ≤ byte && byte ≤ 0x8F
  else isContinuation byte

/-- The characters of `bytes` behind those already read, newest first; of ill-formed bytes, those
that were read before the fault, newest first. -/
def decodeOnto (read : List Char) : List UInt8 → Except (List Char) (List Char)
  | [] => .ok read.reverse
  | a :: rest =>
    if a < 0x80 then decodeOnto (Char.ofNat a.toNat :: read) rest
    else match rest with
      | [] => .error read
      | b :: rest =>
        if 0xC2 ≤ a && a ≤ 0xDF then
          if isContinuation b then
            decodeOnto (Char.ofNat ((a.toNat - 0xC0) * 64 + payload b) :: read) rest
          else .error read
        else match rest with
          | [] => .error read
          | c :: rest =>
            if 0xE0 ≤ a && a ≤ 0xEF then
              if isSecond a b && isContinuation c then
                decodeOnto
                  (Char.ofNat ((a.toNat - 0xE0) * 4096 + payload b * 64 + payload c) :: read) rest
              else .error read
            else match rest with
              | [] => .error read
              | d :: rest =>
                if 0xF0 ≤ a && a ≤ 0xF4 && isSecond a b && isContinuation c
                    && isContinuation d then
                  decodeOnto
                    (Char.ofNat ((a.toNat - 0xF0) * 262144 + payload b * 4096 + payload c * 64
                      + payload d) :: read) rest
                else .error read

/-- The characters of well-formed bytes. -/
def decode? (bytes : List UInt8) : Option (List Char) :=
  (decodeOnto [] bytes).toOption

/-- The number of bytes in front of the first fault. -/
def soundLength (bytes : List UInt8) : Nat :=
  match decodeOnto [] bytes with
  | .ok _ => bytes.length
  | .error read => read.foldl (fun n c => n + c.utf8Size) 0

/-- The string of well-formed bytes. -/
def toString? (bytes : List UInt8) : Option String :=
  (decode? bytes).map String.ofList

end OrderDesk.Text.Utf8
