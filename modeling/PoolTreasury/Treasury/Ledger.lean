import PoolTreasury.Treasury.Effects
import PoolTreasury.Ledger.Accounting
import PoolTreasury.Encoding.Text

/-! # The pool and stake ledger

The ledger owns the rules; the store only keeps records. A pool is created closed and
unpaid, takes reserve top-ups, opens for staking once its commission is paid, and may
be deleted once it holds no reserve, is closed and has no unsettled stake. A stake is
accepted while the principal of the pool's active stakes stays below a tenth of its
reserve. Every completed action appends an operation record; a failed append is logged
and never undoes the action.
-/

namespace PoolTreasury

/-- Parameters of a new pool. -/
structure NewPool where
  ownerId : Nat
  reserveDeposit : Decimal
  tokenMaster : String
  depositAddress : String
  rewardPercent : Decimal
  periodDays : Nat
  coatingPercent : Decimal
deriving Repr

/-- Capacity and liability figures of one pool. -/
structure PoolSummary where
  pool : Pool
  activeStakes : Nat
  activePrincipal : Decimal
  capacityLeft : Decimal
  outstandingLiability : Decimal
  tempReserve : Decimal
deriving Repr

def minRewardPercent : Decimal := Decimal.one
def maxRewardPercent : Decimal := Decimal.ofNat 30

/-- Why a new pool is refused, if it is. -/
def validateNewPool (p : NewPool) : Option String :=
  if p.reserveDeposit < Decimal.one then
    some ("reserve deposit must be at least 1, got " ++ p.reserveDeposit.render)
  else if (trimWhite p.tokenMaster).isEmpty || (trimWhite p.depositAddress).isEmpty then
    some "token wallet is empty"
  else if p.rewardPercent < minRewardPercent || maxRewardPercent < p.rewardPercent then
    some ("reward percent must be within [1, 30], got " ++ p.rewardPercent.render)
  else if p.periodDays < 1 then
    some ("period must be at least 1 day, got " ++ toString p.periodDays)
  else if p.coatingPercent < Decimal.zero || Decimal.hundred < p.coatingPercent then
    some ("insurance coating must be within [0, 100], got " ++ p.coatingPercent.render)
  else none

section

variable {m : Type → Type} [Monad m] [MonadLog m] [MonadLedgerStore m] [MonadClock m]
  [MonadExceptOf Overflow m]

open MonadLedgerStore

/-- Appends an operation record; a failure is only logged. -/
def recordOperation (kind : OperationKind) (userId : Nat) (description : String) : m Unit := do
  match ← appendOperation kind userId description with
  | .ok _ => pure ()
  | .error e =>
    logAt .warn "Failed to record operation"
      [("kind", kind.name), ("user", toString userId), ("error", (LedgerError.storage e).message)]

/-- The user of an address, registered on first sight. -/
def registerUser (address : String) : LedgerT m User := do
  if (trimWhite address).isEmpty then throw (.invalidParameter "wallet address is empty")
  if let some user ← io (findUserByAddress address) then return user
  match ← (saveUser address : m _) with
  | .ok user =>
    logAt .info "👤 User registered" [("user", toString user.id), ("address", address)]
    pure user
  | .error (.duplicate what) =>
    match ← io (findUserByAddress address) with
    | some user => pure user
    | none => throw (.storage (.duplicate what))
  | .error e => throw (.storage e)

def ledgerUser (userId : Nat) : LedgerT m User := do
  match ← io (findUser userId) with
  | some u => pure u
  | none => throw (.userNotFound userId)

def ledgerPool (poolId : Nat) : LedgerT m Pool := do
  match ← io (findPool poolId) with
  | some p => pure p
  | none => throw (.poolNotFound poolId)

def ledgerStake (stakeId : Nat) : LedgerT m Stake := do
  match ← io (findStake stakeId) with
  | some s => pure s
  | none => throw (.stakeNotFound stakeId)

def poolStakes (poolId : Nat) : LedgerT m (List Stake) := io (listStakesByPool poolId)

/-- The pool with its free reserve recomputed from its current stakes. -/
def refreshTempReserve (pool : Pool) : LedgerT m Pool := do
  let stakes ← poolStakes pool.id
  pure { pool with tempReserve := ← checked (freeReserve pool stakes) }

def createPool (params : NewPool) : LedgerT m Pool := do
  if let some why := validateNewPool params then throw (.invalidParameter why)
  let _ ← ledgerUser params.ownerId
  let pool ← io (savePool {
    id := 0, ownerId := params.ownerId, depositAddress := params.depositAddress,
    tokenMaster := params.tokenMaster, reserve := params.reserveDeposit,
    tempReserve := params.reserveDeposit, rewardPercent := params.rewardPercent,
    periodDays := params.periodDays, coatingPercent := params.coatingPercent,
    isActive := false, isCommissionPaid := false, createdAt := ← MonadClock.now })
  logAt .info "🏦 Pool created"
    [("pool", toString pool.id), ("owner", toString pool.ownerId), ("reserve", pool.reserve.render),
      ("reward_percent", pool.rewardPercent.render), ("period_days", toString pool.periodDays)]
  recordOperation .poolCreated pool.ownerId
    ("Pool #" ++ toString pool.id ++ " created with reserve " ++ pool.reserve.render)
  pure pool

/-- Tops up a pool's reserve; answers the new reserve. -/
def addReserve (poolId : Nat) (amount : Decimal) : LedgerT m Decimal := do
  if amount ≤ Decimal.zero then
    throw (.invalidParameter ("reserve top-up must be positive, got " ++ amount.render))
  let pool ← ledgerPool poolId
  let pool := { pool with reserve := ← checked (pool.reserve.add amount) }
  let pool ← refreshTempReserve pool
  io (updatePool pool)
  logAt .info "💰 Reserve added"
    [("pool", toString poolId), ("added", amount.render), ("reserve", pool.reserve.render)]
  recordOperation .reserveAdded pool.ownerId
    ("Added " ++ amount.render ++ " to pool #" ++ toString poolId ++ " reserve")
  pure pool.reserve

/-- Marks the commission paid when `amount` covers `required`; paying twice changes nothing. -/
def payCommission (poolId : Nat) (amount required : Decimal) : LedgerT m Pool := do
  let pool ← ledgerPool poolId
  if pool.isCommissionPaid then
    logAt .debug "Commission already paid" [("pool", toString poolId)]
    return pool
  if amount < required then
    throw (.invalidParameter
      ("commission " ++ amount.render ++ " is below the required " ++ required.render))
  let pool := { pool with isCommissionPaid := true }
  io (updatePool pool)
  logAt .info "🧾 Commission paid" [("pool", toString poolId), ("amount", amount.render)]
  recordOperation .commissionPaid pool.ownerId
    ("Commission " ++ amount.render ++ " paid for pool #" ++ toString poolId)
  pure pool

def setActive (poolId : Nat) (active : Bool) : LedgerT m Pool := do
  let pool ← ledgerPool poolId
  if active && !pool.isCommissionPaid then throw (.commissionUnpaid poolId)
  if pool.isActive == active then return pool
  let pool := { pool with isActive := active }
  io (updatePool pool)
  let kind : OperationKind := if active then .poolActivated else .poolDeactivated
  if active then logAt .info "🟢 Pool opened for staking" [("pool", toString poolId)]
  else logAt .info "🔴 Pool closed for staking" [("pool", toString poolId)]
  recordOperation kind pool.ownerId ("Pool #" ++ toString poolId ++ " " ++ kind.name)
  pure pool

def deletePoolChecked (poolId : Nat) : LedgerT m Unit := do
  let pool ← ledgerPool poolId
  if !pool.reserve.isZero then throw (.reserveNotEmpty poolId)
  if pool.isActive then throw (.poolStillActive poolId)
  let stakes ← poolStakes poolId
  if stakes.any (!·.isSettled) then throw (.unsettledStakesExist poolId)
  io (deletePool poolId)
  logAt .info "🗑️  Pool deleted" [("pool", toString poolId)]
  recordOperation .poolDeleted pool.ownerId ("Pool #" ++ toString poolId ++ " deleted")

def createStake (userId poolId : Nat) (amount price : Decimal) : LedgerT m Stake := do
  if amount ≤ Decimal.zero then
    throw (.invalidParameter ("stake amount must be positive, got " ++ amount.render))
  if price < Decimal.zero then
    throw (.invalidParameter ("price must not be negative, got " ++ price.render))
  let _ ← ledgerUser userId
  let pool ← ledgerPool poolId
  if !pool.isActive then throw (.poolInactive poolId)
  let stakes ← poolStakes poolId
  let principal ← checked (activePrincipal stakes)
  if !(← checked (fitsCapacity principal amount pool.reserve)) then
    let available ← checked (capacityLeft principal pool.reserve)
    logAt .warn "⚠️  Stake rejected: capacity exceeded"
      [("pool", toString poolId), ("requested", amount.render), ("available", available.render)]
    throw (.capacityExceeded poolId amount available)
  let start ← MonadClock.now
  let endDate ← checked (Stake.termEnd? start pool.periodDays)
  let stake ← io (saveStake {
    id := 0, userId, poolId, amount, balance := amount, startDate := start,
    endDate, closeDate := none, isActive := true,
    openPrice := price, closePrice := none, isRewardPaid := false, isInsurancePaid := false })
  logAt .info "📥 Stake created"
    [("stake", toString stake.id), ("pool", toString poolId), ("user", toString userId),
      ("amount", amount.render), ("price", price.render)]
  recordOperation .stakeCreated userId
    ("Staked " ++ amount.render ++ " in pool #" ++ toString poolId ++ " (stake #" ++
      toString stake.id ++ ")")
  pure stake

def poolSummary (poolId : Nat) : LedgerT m PoolSummary := do
  let pool ← ledgerPool poolId
  let stakes ← poolStakes poolId
  let principal ← checked (activePrincipal stakes)
  let owed ← checked (outstandingLiability pool stakes)
  let left ← checked (capacityLeft principal pool.reserve)
  let temp ← checked (pool.reserve.sub owed)
  pure {
    pool, activeStakes := (stakes.filter (·.isActive)).length, activePrincipal := principal,
    capacityLeft := left, outstandingLiability := owed, tempReserve := temp }

end

end PoolTreasury
