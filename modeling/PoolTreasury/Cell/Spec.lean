import PoolTreasury.Cell.Builder
import PoolTreasury.Json.Fields

/-! # Cells described in JSON

A description lists under `ops` the writes that make a cell, each an object naming one
write: `bit`; `uint` or `u128` with its width in `bits`; `bytes` and `snake` as hex;
`coins`; `address` as text, or `null` for none; `ref` as a nested description; and
`snake_cell` as hex, written as a reference. The whole description is read before any
write is made, so a malformed one is refused before the builder sees it.
-/

namespace PoolTreasury

/-- A value of a cell computation inside a store. -/
def liftCell {α : Type} (r : Except CellError α) : StateT Builder (Except CellError) α :=
  match r with
  | .ok a => pure a
  | .error e => throw e

def hexField (j : Json) (key : String) : Reading (List UInt8) :=
  need key ((j.field? key).bind Json.str? |>.bind bytesOfHex?)

def wideField (j : Json) (key : String) (bound : Nat) : Reading Nat := do
  let n ← need key ((j.field? key).bind Json.nat?)
  if n ≥ bound then .error (key ++ " out of range") else pure n

/-- One write; `nested` reads the description of a referenced cell. -/
def describedWrite (nested : Json → Reading Build) (op : Json) : Reading Build := do
  if let some v := op.field? "bit" then return Builder.storeBit (← need "bit" v.bool?)
  if (op.field? "uint").isSome then
    return Builder.storeUint (← wideField op "uint" (2 ^ 64)) (natFieldOr op "bits" 0)
  if (op.field? "u128").isSome then
    return Builder.storeU128 (← wideField op "u128" (2 ^ 128)) (natFieldOr op "bits" 0)
  if (op.field? "bytes").isSome then return Builder.storeBytes (← hexField op "bytes")
  if (op.field? "coins").isSome then return Builder.storeCoins (← wideField op "coins" (2 ^ 128))
  if let some v := op.get? "address" then
    match v with
    | .null => return Builder.storeAddress none
    | .string t => return (do Builder.storeAddress (some (← liftCell (MsgAddress.parse t))))
    | _ => .error "bad address"
  if let some v := op.field? "ref" then
    let inner ← nested v
    return (do Builder.storeRef (← liftCell (buildCell inner)))
  if (op.field? "snake").isSome then return Builder.storeSnakeBytes (← hexField op "snake")
  if (op.field? "snake_cell").isSome then
    return Builder.storeRef (snakeCell (← hexField op "snake_cell"))
  .error "unknown build op"

/-- The writes of a description nested at most `depth` deep. -/
def describedWritesWithin : Nat → Json → Reading Build
  | 0, _ => .error "description nested too deeply"
  | depth + 1, spec => do
    let steps ← (itemsField spec "ops").mapM (describedWrite (describedWritesWithin depth))
    pure (steps.forM id)

/-- The writes of a description; its text bounds how deep it can nest. -/
def describedWrites (spec : Json) : Reading Build :=
  describedWritesWithin (spec.render.length + 1) spec

/-- The cell a description builds. -/
def describedCell (spec : Json) : Reading (Except CellError Cell) :=
  (describedWrites spec).map buildCell

/-- A cell as its bit count, data bytes and referenced cells. -/
def Cell.view : Cell → Json
  | ⟨bits, refs⟩ => .object [("bits", Json.ofNat bits.length),
      ("data", .string (hexOfBytes (Cell.data ⟨bits, refs⟩))), ("refs", .array (views refs))]
where
  views : List Cell → List Json
    | [] => []
    | c :: cs => Cell.view c :: views cs

end PoolTreasury
