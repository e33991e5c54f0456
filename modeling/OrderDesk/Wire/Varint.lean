import OrderDesk.Wire.Error

/-!
# Numbers on the wire

A number is written seven bits a byte, lowest first; every byte but the last has its high bit set.
Ten bytes hold 64 bits.
-/

namespace OrderDesk.Wire.Varint

/-- The bytes of a number. -/
def encode (n : Nat) : List UInt8 :=
  if n < 128 then [UInt8.ofNat n] else UInt8.ofNat (n % 128 + 128) :: encode (n / 128)
termination_by n
decreasing_by omega

/-- A number of at most `places` bytes, and what follows it. Of the last byte that may be there only
one bit is left for 64 bits in all. -/
def readWithin : Nat → List UInt8 → Except Fault (Nat × List UInt8)
  | 0, _ => .error .varint
  | _ + 1, [] => .error .varint
  | places + 1, byte :: rest =>
    if byte < 0x80 then
      if places = 0 ∧ 2 ≤ byte then .error .varint else .ok (byte.toNat, rest)
    else
      match readWithin places rest with
      | .ok (n, rest) => .ok (byte.toNat - 128 + 128 * n, rest)
      | .error e => .error e

/-- **A number below `2 ^ 64`**, and what follows it. -/
def read (bytes : List UInt8) : Except Fault (Nat × List UInt8) :=
  readWithin 10 bytes

end OrderDesk.Wire.Varint
