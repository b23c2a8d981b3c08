import PoolTreasury.Log
import PoolTreasury.Store.Error

/-! # The ingestion cursor

A transaction whose request is queued is held until the request has been applied. The
cursor that is saved is the highest logical time below which every transaction is
finished: one below the lowest held transaction, or the highest seen when nothing is
held. The saved cursor never moves back, so whatever is still queued when the process
stops is fetched again on restart.
-/

namespace PoolTreasury

structure CursorState where
  /-- Held logical times, ascending and without repeats. -/
  held : List Nat := []
  /-- The highest logical time seen so far. -/
  seen : Option Nat := none
  /-- The last point saved. -/
  saved : Option Nat := none
deriving DecidableEq, Repr

def insertAscending (x : Nat) : List Nat → List Nat
  | [] => [x]
  | y :: ys => if x < y then x :: y :: ys else if x = y then y :: ys else y :: insertAscending x ys

def maxSeen (seen : Option Nat) (lt : Nat) : Option Nat :=
  match seen with
  | none => some lt
  | some s => some (max s lt)

namespace CursorState

/-- The last logical time below which everything is finished. -/
def safePoint (s : CursorState) : Option Nat :=
  match s.held with
  | first :: _ => if first = 0 then none else some (first - 1)
  | [] => s.seen

def hold (lt : Nat) (s : CursorState) : CursorState :=
  { s with held := insertAscending lt s.held, seen := maxSeen s.seen lt }

/-- Releases `lt`; also gives the point to save, when it is past the saved one. -/
def release (lt : Nat) (s : CursorState) : CursorState × Option Nat :=
  let s := { s with held := s.held.erase lt, seen := maxSeen s.seen lt }
  match s.safePoint with
  | none => (s, none)
  | some p =>
    match s.saved with
    | some saved => if saved ≥ p then (s, none) else (s, some p)
    | none => (s, some p)

def pending (s : CursorState) : Nat := s.held.length

end CursorState

/-- Effects that keep the ingestion cursor: its state, and saving a point to the store. -/
class MonadCursor (m : Type → Type) where
  cursorState : m CursorState
  setCursorState : CursorState → m Unit
  persistCursor : Nat → m (Except StoreError Unit)

section

variable {m : Type → Type} [Monad m] [MonadLog m] [MonadCursor m]

/-- Marks a transaction whose request is about to be queued. -/
def holdCursor (lt : Nat) : m Unit := do
  MonadCursor.setCursorState ((← MonadCursor.cursorState).hold lt)

/-- Marks a transaction finished and saves the new safe point; a failed save is logged and
leaves the saved point behind. -/
def releaseCursor (lt : Nat) : m Unit := do
  let (s, point) := (← MonadCursor.cursorState).release lt
  MonadCursor.setCursorState s
  match point with
  | none => pure ()
  | some p =>
    match ← MonadCursor.persistCursor p with
    | .ok () => MonadCursor.setCursorState { s with saved := some p }
    | .error e =>
      logAt .warn "Failed to persist ingestion cursor" [("lt", toString p), ("error", e.message)]

def pendingCount : m Nat := do
  pure (← MonadCursor.cursorState).pending

end

end PoolTreasury
