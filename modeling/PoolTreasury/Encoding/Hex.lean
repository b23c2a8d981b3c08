/-! # Hexadecimal text

Bytes are written as two lowercase digits each, the high nibble first. Reading accepts
either case and needs an even number of digits.
-/

namespace PoolTreasury

def nibbleChar (n : Nat) : Char :=
  if n < 10 then Char.ofNat (48 + n) else Char.ofNat (87 + n)

/-- Lowercase hexadecimal text of `bytes`. -/
def hexOfBytes (bytes : List UInt8) : String :=
  String.ofList (bytes.flatMap fun b => [nibbleChar (b.toNat / 16), nibbleChar (b.toNat % 16)])

def nibbleOf? (c : Char) : Option Nat :=
  if '0' ≤ c ∧ c ≤ '9' then some (c.toNat - 48)
  else if 'a' ≤ c ∧ c ≤ 'f' then some (c.toNat - 87)
  else if 'A' ≤ c ∧ c ≤ 'F' then some (c.toNat - 55)
  else none

def bytesOfHexChars : List Char → Option (List UInt8)
  | [] => some []
  | [_] => none
  | hi :: lo :: rest => do
    let h ← nibbleOf? hi
    let l ← nibbleOf? lo
    let tail ← bytesOfHexChars rest
    pure ((h * 16 + l).toUInt8 :: tail)

/-- The bytes that hexadecimal text stands for; `none` for an odd length or a bad digit. -/
def bytesOfHex? (text : String) : Option (List UInt8) :=
  bytesOfHexChars text.toList

end PoolTreasury
