import PoolTreasury.Cell.Address

/-! # Building a cell

A builder gathers bits and references for one cell. The stores are written once, for any monad
that holds a builder and can fail with a cell error. The program builds its cells in `Build`,
where a failing store abandons the builder along with the cell. Read in a monad that keeps its
state on failure, such as `EStateM`, the same stores change the builder in place, and a store
made of several stores keeps what its first parts wrote when a later part fails.
-/

namespace PoolTreasury

structure Builder where
  bits : List Bool := []
  refs : List Cell := []
deriving Inhabited, Repr

/-- A store as the program runs it: a failing store gives an error and no builder. -/
abbrev Build := StateT Builder (Except CellError) Unit

namespace Builder

def bitsLeft (b : Builder) : Nat := maxCellBits - b.bits.length

def build (b : Builder) : Cell := { bits := b.bits, refs := b.refs }

def tooManyBits : CellError := .overflow ("more than " ++ toString maxCellBits ++ " bits")

section Stores

variable {m : Type → Type} [Monad m] [MonadStateOf Builder m] [MonadExceptOf CellError m]

def storeBit (bit : Bool) : m Unit := do
  let b ← get
  if b.bits.length ≥ maxCellBits then throw tooManyBits
  set { b with bits := b.bits ++ [bit] }

def storeU128 (value width : Nat) : m Unit := do
  if width > 128 ∨ (width < 128 ∧ value / 2 ^ width ≠ 0) then
    throw (.overflow (toString value ++ " does not fit in " ++ toString width ++ " bits"))
  let b ← get
  if width > b.bitsLeft then throw tooManyBits
  set { b with bits := b.bits ++ bitsOfNat width value }

def storeUint (value width : Nat) : m Unit := do
  if width > 64 then throw (.overflow (toString width ++ " bits from u64"))
  storeU128 value width

def storeBytes (bytes : List UInt8) : m Unit := do
  let b ← get
  if bytes.length * 8 > b.bitsLeft then
    throw (.overflow (toString bytes.length ++ " bytes do not fit"))
  set { b with bits := b.bits ++ bitsOfBytes bytes }

/-- The byte length of the amount in four bits, then the amount in that many bytes. -/
def storeCoins (amount : Nat) : m Unit := do
  let len := (bitLength amount + 7) / 8
  if len > 15 then throw (.overflow ("coin amount " ++ toString amount))
  storeUint len 4
  storeU128 amount (len * 8)

def storeAddress : Option MsgAddress → m Unit
  | none => storeUint 0 2
  | some a => do
    storeUint 2 2
    storeBit false
    storeUint a.workchain.toUInt8.toNat 8
    storeBytes a.hash

def storeRef (c : Cell) : m Unit := do
  let b ← get
  if b.refs.length ≥ maxCellRefs then
    throw (.overflow ("more than " ++ toString maxCellRefs ++ " references"))
  set { b with refs := b.refs ++ [c] }

/-- As many whole bytes as fit here, the rest as a chain of cells in a reference. -/
def storeSnakeBytes (bytes : List UInt8) : m Unit := do
  let fit := min ((← get).bitsLeft / 8) bytes.length
  storeBytes (bytes.take fit)
  if fit < bytes.length then storeRef (snakeCell (bytes.drop fit))

end Stores

end Builder

/-- The cell a sequence of stores builds from an empty builder. -/
def buildCell (stores : Build) : Except CellError Cell :=
  (stores.run {}).map fun (_, b) => b.build

end PoolTreasury
