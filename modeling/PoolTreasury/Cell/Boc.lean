import PoolTreasury.Cell.Basic
import PoolTreasury.Encoding.Base64
import PoolTreasury.Encoding.Text

/-! # Bags of cells

A bag of cells serialises a tree of cells as a flat list in which every reference
points to a later entry. The header gives the magic bytes, a flag byte whose low bits
are the width of a cell index, the width of a byte offset, the counts of cells, roots
and absent cells, and the total size of the cell data. The root indices follow, then an
optional offset index, the cell data, and an optional checksum, which is skipped.

Each cell starts with two descriptor bytes. The first holds the reference count in its
low three bits, with flags for exotic cells and stored hashes. The second is the data
length: its half, rounded up, is the number of data bytes, and an odd value marks a
last byte that ends in a one bit followed by zero padding. Writing emits one root, no
index and no checksum, with the cells in pre-order and every width as small as its
largest number needs.
-/

namespace PoolTreasury

def bocMagic : List UInt8 := [0xb5, 0xee, 0x9c, 0x72]

/-- A position in a byte string; reading past the end reports where the read began. -/
structure ByteCursor where
  rest : List UInt8
  offset : Nat := 0

abbrev ByteRead (α : Type) := StateT ByteCursor (Except CellError) α

namespace ByteCursor

def take (n : Nat) : ByteRead (List UInt8) := do
  let c ← get
  if n ≤ c.rest.length then
    set { c with rest := c.rest.drop n, offset := c.offset + n }
    pure (c.rest.take n)
  else throw (.unexpectedEof c.offset)

def readByte : ByteRead UInt8 := do
  pure ((← take 1).headD 0)

/-- A big-endian number of `size` bytes. -/
def readUint (size : Nat) : ByteRead Nat := do
  pure ((← take size).foldl (fun acc b => acc * 256 + b.toNat) 0)

end ByteCursor

/-- A cell as stored: its bits and the indices of the cells it references. -/
structure RawCell where
  bits : List Bool
  refs : List Nat

def countOnes (n : Nat) : Nat := (bitsOfNat 8 n).count true

/-- The index of the lowest one bit of a nonzero byte. -/
def trailingZeros (b : Nat) : Nat :=
  ((List.range 8).find? fun i => b / 2 ^ i % 2 = 1).getD 8

def readRefs (index count refSize : Nat) : Nat → ByteRead (List Nat)
  | 0 => pure []
  | k + 1 => do
    let r ← ByteCursor.readUint refSize
    if r ≤ index ∨ r ≥ count then throw (.invalidRef index r)
    pure (r :: (← readRefs index count refSize k))

/-- The data bits a descriptor's length byte stands for. -/
def dataBits (index d2 : Nat) (data : List UInt8) : Except CellError (List Bool) :=
  if d2 % 2 = 0 then .ok (bitsOfBytes data)
  else
    let last := (data.getLastD 0).toNat
    if last = 0 then .error (.unsupported ("cell " ++ toString index ++ " lacks completion tag"))
    else .ok ((bitsOfBytes data).take (data.length * 8 - trailingZeros last - 1))

def readRawCell (index count refSize : Nat) : ByteRead RawCell := do
  let d1 := (← ByteCursor.readByte).toNat
  let d2 := (← ByteCursor.readByte).toNat
  if d1 &&& 0x08 ≠ 0 then throw (.unsupported ("exotic cell " ++ toString index))
  let refCount := d1 &&& 0x07
  if refCount > maxCellRefs then
    throw (.unsupported ("cell " ++ toString index ++ " has " ++ toString refCount ++ " references"))
  if d1 &&& 0x10 ≠ 0 then
    let _ ← ByteCursor.take ((countOnes (d1 >>> 5) + 1) * (32 + 2))
  let data ← ByteCursor.take ((d2 + 1) / 2)
  let bits ← match dataBits index d2 data with
    | .ok b => pure b
    | .error e => throw e
  let refs ← readRefs index count refSize refCount
  pure { bits, refs }

def readRawCells (count refSize : Nat) : Nat → Nat → ByteRead (List RawCell)
  | _, 0 => pure []
  | index, k + 1 => do
    let c ← readRawCell index count refSize
    pure (c :: (← readRawCells count refSize (index + 1) k))

/-- Cells from the last to the first; each one's references are already built. -/
def assemble (count : Nat) : List (Nat × RawCell) → Array Cell → Array Cell
  | [], built => built
  | (_, raw) :: rest, built =>
    let refs := raw.refs.map fun r => built.getD (count - 1 - r) default
    assemble count rest (built.push { bits := raw.bits, refs })

/-- The first root of a bag of cells. -/
def Cell.ofBoc (bytes : List UInt8) : Except CellError Cell :=
  (go.run' { rest := bytes })
where
  go : ByteRead Cell := do
    let magic ← ByteCursor.take 4
    if magic ≠ bocMagic then throw (.invalidMagic (hexOfBytes magic))
    let flags := (← ByteCursor.readByte).toNat
    let refSize := flags &&& 0x07
    if refSize = 0 ∨ refSize > 4 then
      throw (.unsupported ("reference size " ++ toString refSize))
    let offSize := (← ByteCursor.readByte).toNat
    if offSize = 0 ∨ offSize > 8 then throw (.unsupported ("offset size " ++ toString offSize))
    let cellCount ← ByteCursor.readUint refSize
    let rootCount ← ByteCursor.readUint refSize
    let _ ← ByteCursor.readUint refSize
    let totalSize ← ByteCursor.readUint offSize
    if rootCount = 0 then throw (.unsupported "BOC without roots")
    if cellCount = 0 ∨ cellCount > totalSize / 2 then
      throw (.unsupported (toString cellCount ++ " cells in " ++ toString totalSize ++ " bytes"))
    let root ← ByteCursor.readUint refSize
    let _ ← ByteCursor.take ((rootCount - 1) * refSize)
    if flags &&& 0x80 ≠ 0 then
      let _ ← ByteCursor.take (cellCount * offSize % 2 ^ 64)
    let cellsData ← ByteCursor.take totalSize
    if flags &&& 0x40 ≠ 0 then
      let _ ← ByteCursor.take 4
    let raw ← match (readRawCells cellCount refSize 0 cellCount).run' { rest := cellsData } with
      | .ok r => pure r
      | .error e => throw e
    let built := assemble cellCount ((List.range cellCount).zip raw).reverse #[]
    if root < cellCount then pure (built.getD (cellCount - 1 - root) default)
    else throw (.invalidRef 0 root)

/-- The cells of a tree in pre-order from index `start`, each with its references' indices. -/
def preorder (start : Nat) : Cell → List (Cell × List Nat)
  | c@⟨_, refs⟩ =>
    let (entries, indices) := children (start + 1) refs
    (c, indices) :: entries
where
  children (start : Nat) : List Cell → List (Cell × List Nat) × List Nat
    | [] => ([], [])
    | r :: rs =>
      let e := preorder start r
      let (es, is) := children (start + e.length) rs
      (e ++ es, start :: is)

/-- The fewest bytes, at most eight, that hold `value`. -/
def bytesNeeded (value : Nat) : Nat :=
  ((List.range 7).find? fun n => value < 256 ^ (n + 1)).map (· + 1) |>.getD 8

/-- `value` in `size` big-endian bytes, higher bytes cut off. -/
def uintBytes (value size : Nat) : List UInt8 :=
  (List.range size).reverse.map fun i => (value / 256 ^ i % 256).toUInt8

/-- The data bytes with the end marker: a one bit after a partial last byte. -/
def taggedData (bits : List Bool) : List UInt8 :=
  if bits.length % 8 = 0 then bytesOfBits bits else bytesOfBits (bits ++ [true])

/-- A bag of cells with `c` as its single root. -/
def Cell.toBoc (c : Cell) : List UInt8 :=
  let order := preorder 0 c
  let refSize := bytesNeeded order.length
  let cells := order.flatMap fun (d, refs) =>
    [(d.refs.length % 256).toUInt8, ((d.bits.length / 8 + (d.bits.length + 7) / 8) % 256).toUInt8] ++
      taggedData d.bits ++ refs.flatMap fun r => uintBytes r refSize
  let offSize := bytesNeeded cells.length
  bocMagic ++ [refSize.toUInt8, offSize.toUInt8] ++ uintBytes order.length refSize ++
    uintBytes 1 refSize ++ uintBytes 0 refSize ++ uintBytes cells.length offSize ++
    uintBytes 0 refSize ++ cells

def Cell.toBocBase64 (c : Cell) : String := base64Encode .standard c.toBoc

/-- The first root of a bag of cells written in standard base64, blank ends ignored. -/
def Cell.ofBocBase64 (text : String) : Except CellError Cell :=
  match base64Decode .standard (trimWhite text).toUTF8.toList with
  | .ok bytes => Cell.ofBoc bytes
  | .error e => .error (.unsupported ("BOC is not base64: " ++ e.message))

end PoolTreasury
