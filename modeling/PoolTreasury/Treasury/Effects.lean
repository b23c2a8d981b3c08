import PoolTreasury.Treasury.Error
import PoolTreasury.Store.Interface
import PoolTreasury.Log

/-! # What the treasury services depend on

Besides the store, the services use a clock, a price oracle, a transfer executor and a
notifier. Calls to the oracle and the executor run under a deadline in milliseconds: a
call that would take longer has no effect and answers `none`. Arithmetic overflow is a
fault of its own (`Overflow`), thrown through the monad and not a ledger error.
-/

namespace PoolTreasury

/-- One transfer out of the treasury. -/
structure TransferRequest where
  tokenMaster : String
  destination : String
  /-- In display units; converted with `decimals` before sending. -/
  amount : Decimal
  decimals : Nat
  comment : String
deriving DecidableEq, Repr

/-- A message for a staker or a pool owner. -/
inductive Notification where
  | stakeClosed (stake : Stake) (message : String)
  | user (userId : Nat) (message : String)
deriving DecidableEq, Repr

namespace Notification

def recipient : Notification → Nat
  | .stakeClosed s _ => s.userId
  | .user u _ => u

def message : Notification → String
  | .stakeClosed _ m => m
  | .user _ m => m

end Notification

class MonadClock (m : Type → Type) where
  now : m Instant
  /-- Waits the given number of milliseconds. -/
  sleep : Nat → m Unit

class MonadPriceOracle (m : Type → Type) where
  usdPrice : (deadlineMs : Nat) → (token : String) → m (Option (Except OracleError Decimal))

class MonadTransfers (m : Type → Type) where
  send : (deadlineMs : Nat) → TransferRequest → m (Option (Except TransferError String))
  resolveTokenWallet : (deadlineMs : Nat) → (tokenMaster owner : String) →
    m (Option (Except TransferError String))

class MonadNotify (m : Type → Type) where
  publish : Notification → m Unit

instance {m : Type → Type} {ε : Type} [Monad m] [MonadClock m] : MonadClock (ExceptT ε m) where
  now := ExceptT.lift MonadClock.now
  sleep ms := ExceptT.lift (MonadClock.sleep ms)

instance {m : Type → Type} {ε : Type} [Monad m] [MonadPriceOracle m] :
    MonadPriceOracle (ExceptT ε m) where
  usdPrice d t := ExceptT.lift (MonadPriceOracle.usdPrice d t)

instance {m : Type → Type} {ε : Type} [Monad m] [MonadTransfers m] :
    MonadTransfers (ExceptT ε m) where
  send d r := ExceptT.lift (MonadTransfers.send d r)
  resolveTokenWallet d t o := ExceptT.lift (MonadTransfers.resolveTokenWallet d t o)

instance {m : Type → Type} {ε : Type} [Monad m] [MonadNotify m] : MonadNotify (ExceptT ε m) where
  publish n := ExceptT.lift (MonadNotify.publish n)

/-- A computation that may be refused by the ledger. -/
abbrev LedgerT (m : Type → Type) := ExceptT LedgerError m

section

variable {m : Type → Type} [Monad m]

/-- A store call; a store failure is a storage error of the ledger. -/
def io {α : Type} (call : m (Except StoreError α)) : LedgerT m α := do
  match ← (call : m _) with
  | .ok a => pure a
  | .error e => throw (.storage e)

/-- Arithmetic whose overflow aborts the whole computation. -/
def checked [MonadExceptOf Overflow m] {α : Type} (r : Except Overflow α) : m α :=
  match r with
  | .ok a => pure a
  | .error o => throwThe Overflow o

/-- A call to another service under a deadline; running past it is a timeout named `what`. -/
def bounded {α ε : Type} (what : String) (wrap : ε → LedgerError)
    (call : m (Option (Except ε α))) : LedgerT m α := do
  match ← (call : m _) with
  | none => throw (.timeout what)
  | some (.ok a) => pure a
  | some (.error e) => throw (wrap e)

end

end PoolTreasury
