import PoolTreasury.Cell.Address

/-! # Reading a cell

A slice is a cell with a read position in its bits and one in its references. Each
read takes from the front and fails, leaving nothing changed, when the cell holds too
little.
-/

namespace PoolTreasury

structure Slice where
  cell : Cell
  bitPos : Nat := 0
  refPos : Nat := 0
deriving Inhabited, Repr

/-- A read that moves a slice forward. -/
abbrev Read (α : Type) := StateT Slice (Except CellError) α

def Cell.slice (c : Cell) : Slice := { cell := c }

namespace Slice

def remainingBits (s : Slice) : Nat := s.cell.bits.length - s.bitPos
def remainingRefs (s : Slice) : Nat := s.cell.refs.length - s.refPos

def remainingCounts : Read (Nat × Nat) := do
  let s ← get
  pure (s.remainingBits, s.remainingRefs)

def ensureBits (wanted : Nat) : Read Unit := do
  let s ← get
  if wanted > s.remainingBits then throw (.bitsExhausted wanted s.remainingBits)

/-- The next `n` bits, which must be there. -/
def takeBits (n : Nat) : Read (List Bool) := do
  ensureBits n
  let s ← get
  set { s with bitPos := s.bitPos + n }
  pure ((s.cell.bits.drop s.bitPos).take n)

def loadBit : Read Bool := do
  let bits ← takeBits 1
  pure (bits.headD false)

def skipBits (n : Nat) : Read Unit := do
  let _ ← takeBits n

def loadU128 (n : Nat) : Read Nat := do
  if n > 128 then throw (.overflow (toString n ++ " bits into u128"))
  pure (natOfBits (← takeBits n))

def loadUint (n : Nat) : Read Nat := do
  if n > 64 then throw (.overflow (toString n ++ " bits into u64"))
  loadU128 n

def loadU32 : Read Nat := loadUint 32

def loadBytes (n : Nat) : Read (List UInt8) := do
  pure (bytesOfBits (← takeBits (n * 8)))

/-- A length in bytes (four bits), then that many bytes of amount. -/
def loadCoins : Read Nat := do
  let len ← loadUint 4
  loadU128 (len * 8)

/-- An address; `none` for the empty one. -/
def loadAddress : Read (Option MsgAddress) := do
  match ← loadUint 2 with
  | 0 => pure none
  | 2 =>
    if ← loadBit then throw (.unsupported "anycast address")
    let wc ← loadUint 8
    let hash ← loadBytes 32
    pure (some { workchain := wc.toUInt8.toInt8, hash })
  | 1 => throw (.unsupported "external address")
  | _ => throw (.unsupported "variable-length address")

def loadRef : Read Cell := do
  let s ← get
  match s.cell.refs[s.refPos]? with
  | none => throw (.missingRef s.refPos)
  | some c =>
    set { s with refPos := s.refPos + 1 }
    pure c

/-- A bit, then on `1` the next reference, on `0` everything left here, which is used up. -/
def loadEitherRef : Read Slice := do
  if ← loadBit then pure (← loadRef).slice
  else
    let s ← get
    set { s with bitPos := s.cell.bits.length, refPos := s.cell.refs.length }
    pure s

/-- Whole bytes left here, then those of the chain starting at the next reference. -/
def loadSnakeBytes : Read (List UInt8) := do
  let here ← loadBytes ((← get).remainingBits / 8)
  if (← get).remainingRefs > 0 then
    let next ← loadRef
    pure (here ++ next.chainBytes)
  else pure here

end Slice

end PoolTreasury
