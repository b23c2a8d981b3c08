import PoolTreasury.Prelude
import PoolTreasury.Encoding.Hex

/-! # Cells

A cell holds up to 1023 data bits and up to four references to other cells. The bits
are kept as a list, most significant first; written out, they are packed into bytes,
the last byte padded with zero bits.
-/

namespace PoolTreasury

def maxCellBits : Nat := 1023
def maxCellRefs : Nat := 4

structure Cell where
  bits : List Bool := []
  refs : List Cell := []
deriving Inhabited, Repr

/-- What can go wrong while reading, building or serialising cells. -/
inductive CellError where
  | invalidMagic (found : String)
  | unexpectedEof (offset : Nat)
  | bitsExhausted (wanted left : Nat)
  | missingRef (position : Nat)
  | overflow (detail : String)
  | unsupported (detail : String)
  | invalidRef (cell reference : Nat)
  | invalidAddress (text : String)
deriving DecidableEq, Repr

namespace CellError

def message : CellError → String
  | .invalidMagic m => "Invalid BOC magic: " ++ m
  | .unexpectedEof o => "Unexpected end of data at offset " ++ toString o
  | .bitsExhausted w l =>
    "Cell data exhausted: wanted " ++ toString w ++ " bits, " ++ toString l ++ " left"
  | .missingRef p => "Cell has no reference at position " ++ toString p
  | .overflow d => "Cell overflow: " ++ d
  | .unsupported d => "Unsupported cell: " ++ d
  | .invalidRef c r => "Invalid reference " ++ toString r ++ " from cell " ++ toString c
  | .invalidAddress t => "Invalid address: " ++ t

def variant : CellError → String
  | .invalidMagic _ => "InvalidMagic"
  | .unexpectedEof _ => "UnexpectedEof"
  | .bitsExhausted .. => "BitsExhausted"
  | .missingRef _ => "MissingRef"
  | .overflow _ => "Overflow"
  | .unsupported _ => "Unsupported"
  | .invalidRef .. => "InvalidRef"
  | .invalidAddress _ => "InvalidAddress"

end CellError

/-- The `width` low bits of `value`, most significant first. -/
def bitsOfNat : Nat → Nat → List Bool
  | 0, _ => []
  | w + 1, value => (value / 2 ^ w % 2 == 1) :: bitsOfNat w value

/-- The number a list of bits spells, most significant first. -/
def natOfBits (bits : List Bool) : Nat :=
  bits.foldl (fun acc b => 2 * acc + if b then 1 else 0) 0

def bitsOfBytes (bytes : List UInt8) : List Bool :=
  bytes.flatMap fun b => bitsOfNat 8 b.toNat

/-- Bits packed into bytes, the last byte filled with zero bits. -/
def bytesOfBits (bits : List Bool) : List UInt8 :=
  if h : bits.length ≤ 8 then
    if bits.isEmpty then [] else [(natOfBits (bits ++ List.replicate (8 - bits.length) false)).toUInt8]
  else (natOfBits (bits.take 8)).toUInt8 :: bytesOfBits (bits.drop 8)
termination_by bits.length
decreasing_by simp; omega

/-- The least number of bits that writes `n`. -/
def bitLength (n : Nat) : Nat :=
  if n = 0 then 0 else Nat.log2 n + 1

namespace Cell

def data (c : Cell) : List UInt8 := bytesOfBits c.bits

/-- Whole bytes of a chain of cells: each cell's bytes, then those of its first reference. -/
def chainBytes : Cell → List UInt8
  | ⟨bits, []⟩ => bytesOfBits (bits.take (bits.length / 8 * 8))
  | ⟨bits, r :: _⟩ => bytesOfBits (bits.take (bits.length / 8 * 8)) ++ chainBytes r

/-- The number of cells in the expanded tree, counting at most up to `limit + 1`. -/
def countUpTo (limit : Nat) (c : Cell) : Nat :=
  go [c] 0 (limit + 1)
where
  go : List Cell → Nat → Nat → Nat
    | [], n, _ => n
    | _, n, 0 => n
    | d :: rest, n, fuel + 1 => go (d.refs ++ rest) (n + 1) fuel

/-- Whether the expanded tree has more than `limit` cells. -/
def exceeds (limit : Nat) (c : Cell) : Bool := countUpTo limit c > limit

end Cell

/-- A chain of cells holding `bytes`, 127 to a cell, each continuing in its reference. -/
def snakeCell (bytes : List UInt8) : Cell :=
  if h : bytes.length ≤ maxCellBits / 8 then { bits := bitsOfBytes bytes }
  else { bits := bitsOfBytes (bytes.take (maxCellBits / 8)),
         refs := [snakeCell (bytes.drop (maxCellBits / 8))] }
termination_by bytes.length
decreasing_by simp [maxCellBits] at h ⊢; omega

end PoolTreasury
