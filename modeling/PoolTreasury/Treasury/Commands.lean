import PoolTreasury.Treasury.Ledger
import PoolTreasury.Ingest.Cursor
import PoolTreasury.Wire.Message
import PoolTreasury.Json.Shape

/-! # Applying requests

Every request comes with a token deposit. The sender is registered, the deposit is read
from base units, and the request is applied to the ledger. Failures that may pass on
retry are retried with a linearly growing pause; a request that is finally refused leaves
its deposit in the treasury, and the warning names what is needed for a manual refund.
Either way the request's transaction is released on the ingestion cursor.
-/

namespace PoolTreasury

/-- What the processor needs to know about the treasury. -/
structure CommandSettings where
  tokenDecimals : Nat
  commissionAmount : Decimal
  treasuryAddress : String
  callMs : Nat
  retryAttempts : Nat := 3
  retryBackoffMs : Nat := 2000

inductive CommandOutcome where
  | poolCreated (pool : Pool)
  | reserveAdded (poolId : Nat) (reserve : Decimal)
  | stakeCreated (stake : Stake)
  | commissionPaid (pool : Pool)
deriving Repr

def CommandOutcome.describe : CommandOutcome → String
  | .poolCreated p => "Pool #" ++ toString p.id ++ " created"
  | .reserveAdded id r => "Pool #" ++ toString id ++ " reserve now " ++ r.render
  | .stakeCreated s => "Stake #" ++ toString s.id ++ " opened in pool #" ++ toString s.poolId
  | .commissionPaid p => "Pool #" ++ toString p.id ++ " commission paid"

def createPoolPayloadShape : Shape :=
  .record "CreatePoolPayload"
    [("token_master", .text, .required), ("reward_percent", .decimal, .required),
     ("period_days", .unsigned 32, .required), ("insurance_coating_percent", .decimal, .required)]

def poolPayloadShape : Shape := .record "PoolPayload" [("pool_id", .unsigned 64, .required)]

/-- A request body of the given shape. -/
def readPayload (shape : Shape) (payload : List UInt8) : Except LedgerError Json :=
  match shape.readBytes (ByteArray.mk payload.toArray) with
  | .ok j => .ok j
  | .error e => .error (.invalidParameter ("malformed payload: " ++ e.render))

/-- Two addresses are the same when both parse and agree, or else when the texts agree. -/
def sameAddress (a b : String) : Bool :=
  match MsgAddress.parse a, MsgAddress.parse b with
  | .ok x, .ok y => x == y
  | _, _ => a == b

/-- The duration text of a whole number of seconds. -/
def secondsText (ms : Nat) : String :=
  if ms % 1000 = 0 then toString (ms / 1000) ++ "s" else toString ms ++ "ms"

section

variable {m : Type → Type} [Monad m] [MonadLog m] [MonadLedgerStore m] [MonadClock m]
  [MonadExceptOf Overflow m] [MonadPriceOracle m] [MonadTransfers m] [MonadCursor m]

/-- The pool a request names, checked against the wallet its deposit came through. -/
def targetPool (request : SubmitTransaction) : LedgerT m Pool := do
  let payload ← liftExcept (readPayload poolPayloadShape request.payload)
  let pool ← ledgerPool (((payload.get? "pool_id").bind Json.nat?).getD 0)
  if let some wallet := request.tokenWallet then
    if !sameAddress wallet pool.depositAddress then
      throw (.invalidParameter ("deposit came from " ++ wallet ++ ", pool #" ++ toString pool.id ++
        " takes deposits at " ++ pool.depositAddress))
  pure pool
where
  liftExcept {α : Type} : Except LedgerError α → LedgerT m α
    | .ok a => pure a
    | .error e => throw e

def ownedPool (request : SubmitTransaction) (user : User) : LedgerT m Pool := do
  let pool ← targetPool request
  if pool.ownerId != user.id then throw (.notOwner pool.id user.id)
  pure pool

def createPoolRequest (settings : CommandSettings) (request : SubmitTransaction) (owner : User)
    (reserve : Decimal) (payload : Json) : LedgerT m CommandOutcome := do
  let tokenMaster := ((payload.get? "token_master").bind Json.str?).getD ""
  let depositAddress ← bounded "token wallet lookup" .transfer
    (MonadTransfers.resolveTokenWallet settings.callMs tokenMaster settings.treasuryAddress)
  if let some wallet := request.tokenWallet then
    if !sameAddress wallet depositAddress then
      throw (.invalidParameter ("deposit came from " ++ wallet ++ " but " ++ depositAddress ++
        " is the treasury wallet for " ++ tokenMaster))
  let decimalField (key : String) : Decimal :=
    (((payload.get? key).bind Json.str?).bind Decimal.read?).getD Decimal.zero
  let pool ← createPool {
    ownerId := owner.id, reserveDeposit := reserve, tokenMaster, depositAddress,
    rewardPercent := decimalField "reward_percent",
    periodDays := ((payload.get? "period_days").bind Json.nat?).getD 0,
    coatingPercent := decimalField "insurance_coating_percent" }
  pure (.poolCreated pool)

def applyRequest (settings : CommandSettings) (request : SubmitTransaction) :
    LedgerT m CommandOutcome := do
  let user ← registerUser request.sender
  let amount ← match fromBaseUnits request.amount settings.tokenDecimals with
    | .ok a => pure a
    | .error e => throw (.invalidParameter e.message)
  match request.operation with
  | .createPool =>
    match readPayload createPoolPayloadShape request.payload with
    | .error e => throw e
    | .ok payload => createPoolRequest settings request user amount payload
  | .addReserve =>
    let pool ← ownedPool request user
    pure (.reserveAdded pool.id (← addReserve pool.id amount))
  | .createStake =>
    let pool ← targetPool request
    let price ← bounded "price lookup" .oracle (MonadPriceOracle.usdPrice settings.callMs pool.tokenMaster)
    pure (.stakeCreated (← createStake user.id pool.id amount price))
  | .payCommission =>
    let pool ← ownedPool request user
    pure (.commissionPaid (← payCommission pool.id amount settings.commissionAmount))

def applyWithRetry (settings : CommandSettings) (request : SubmitTransaction) :
    Nat → Nat → m (Except LedgerError CommandOutcome)
  | _, 0 => (applyRequest settings request).run
  | attempt, fuel + 1 => do
    match ← (applyRequest settings request).run with
    | .error e =>
      if e.isRetriable && attempt < settings.retryAttempts then
        let delay := settings.retryBackoffMs * attempt
        logAt .warn ("🔄 Request failed, retrying in " ++ secondsText delay)
          [("operation", request.operation.name), ("tx", request.txHash),
            ("attempt", toString attempt), ("error", e.message)]
        MonadClock.sleep delay
        applyWithRetry settings request (attempt + 1) fuel
      else pure (.error e)
    | result => pure result

/-- Applies one request, logs the outcome and releases its transaction. -/
def handleRequest (settings : CommandSettings) (request : SubmitTransaction) :
    m (Except LedgerError CommandOutcome) := do
  let result ← applyWithRetry settings request 1 settings.retryAttempts
  match result with
  | .ok outcome =>
    logAt .info ("✅ " ++ outcome.describe)
      [("operation", request.operation.name), ("sender", request.sender), ("tx", request.txHash)]
  | .error e =>
    logAt .warn "⚠️  Request rejected, manual refund required"
      [("operation", request.operation.name), ("sender", request.sender),
        ("amount", toString request.amount), ("tx", request.txHash), ("error", e.message)]
  releaseCursor request.lt
  pure result

/-- Handles queued requests in order until the queue is closed and empty. -/
def runProcessor (settings : CommandSettings) : List SubmitTransaction → m Unit
  | [] => logAt .info "Command channel closed, processor stopped"
  | r :: rest => do
    let _ ← handleRequest settings r
    runProcessor settings rest

end

end PoolTreasury
