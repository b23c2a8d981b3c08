import PoolTreasury.Treasury.Ledger

/-! # Payouts

A closed stake is paid either its balance (a reward) or its balance plus insurance, when
the token's price fell past the pool's coating. An owner may take back what a closed
pool's reserve holds beyond what its closed stakes are owed. Every payout checks its
preconditions, sends the transfer, and only then marks the stake or debits the pool, so
a failure before the transfer leaves everything as it was. A failure after the transfer
is reported for manual reconciliation.
-/

namespace PoolTreasury

/-- A completed transfer out of the treasury. -/
structure Payout where
  stakeId : Option Nat
  poolId : Nat
  recipient : String
  amount : Decimal
  txHash : String
deriving Repr

inductive ClaimKind where
  | reward
  | insurance
deriving DecidableEq, Repr

/-- The deadline of every call to another service, in milliseconds. -/
structure CallLimits where
  callMs : Nat
  decimals : Nat

/-- The comment a claim transfer carries. -/
def claimComment (kind : ClaimKind) (stakeId : Nat) : String :=
  match kind with
  | .reward => "Reward for stake #" ++ toString stakeId
  | .insurance => "Insurance for stake #" ++ toString stakeId

/-- The stake with the flag of a paid claim set. -/
def Stake.paid (stake : Stake) : ClaimKind → Stake
  | .reward => { stake with isRewardPaid := true }
  | .insurance => { stake with isInsurancePaid := true }

section

variable {m : Type → Type} [Monad m] [MonadLog m] [MonadLedgerStore m] [MonadClock m]
  [MonadExceptOf Overflow m] [MonadTransfers m] [MonadNotify m]

open MonadLedgerStore

/-- Sends a transfer from a pool's token; a failure is logged and nothing is recorded. -/
def transferOut (limits : CallLimits) (pool : Pool) (destination : String) (amount : Decimal)
    (comment : String) : LedgerT m String := do
  let request : TransferRequest :=
    { tokenMaster := pool.tokenMaster, destination, amount, decimals := limits.decimals, comment }
  try bounded "transfer" .transfer (MonadTransfers.send limits.callMs request)
  catch e =>
    logAt .warn "⚠️  Transfer failed, nothing recorded"
      [("pool", toString pool.id), ("destination", destination), ("error", e.message)]
    throw e

/-- Writes a settled stake and its debited pool together, the free reserve recomputed. -/
def persistClaim (stake : Stake) (pool : Pool) : LedgerT m Pool := do
  let stakes := (← poolStakes pool.id).map fun s => if s.id == stake.id then stake else s
  let pool := { pool with tempReserve := ← checked (freeReserve pool stakes) }
  io (settleClaim stake pool)
  pure pool

/-- What a claim of this kind pays out and debits from the reserve, once the stake's
eligibility for insurance is known: the balance and the reward, with the insurance added to
both for an insurance claim. A claim of the other kind than the eligibility allows is
refused. -/
def claimDue (stakeId : Nat) (kind : ClaimKind) (eligible : Bool) (pool : Pool) (stake : Stake) :
    LedgerT m (Decimal × Decimal) :=
  match kind with
  | .reward => do
    if eligible then throw (.insuranceEligible stakeId)
    pure (stake.balance, ← checked stake.accruedReward)
  | .insurance => do
    if !eligible then throw (.notInsuranceEligible stakeId)
    let insurance ← checked (insuranceAmount pool.reserve stake.amount)
    let payout ← checked (stake.balance.add insurance)
    let reward ← checked stake.accruedReward
    pure (payout, ← checked (reward.add insurance))

def claim (limits : CallLimits) (stakeId : Nat) (kind : ClaimKind) : LedgerT m Payout := do
  let poolId := (← ledgerStake stakeId).poolId
  let stake ← ledgerStake stakeId
  let pool ← ledgerPool poolId
  if stake.isSettled then throw (.alreadySettled stakeId)
  if stake.isActive then throw (.stakeStillActive stakeId)
  let eligible ← checked (isInsuranceEligible pool stake)
  let (payout, debit) ← claimDue stakeId kind eligible pool stake
  if pool.reserve < payout then
    let shortfall ← checked (payout.sub pool.reserve)
    logAt .warn "⚠️  Reserve cannot cover payout"
      [("stake", toString stakeId), ("pool", toString poolId), ("payout", payout.render),
        ("reserve", pool.reserve.render)]
    MonadNotify.publish (.user stake.userId
      ("Payout of " ++ payout.render ++ " for stake #" ++ toString stakeId ++
        " is delayed: pool #" ++ toString poolId ++ " is short by " ++ shortfall.render ++ "."))
    MonadNotify.publish (.user pool.ownerId
      ("Pool #" ++ toString poolId ++ " cannot pay " ++ payout.render ++ " for stake #" ++
        toString stakeId ++ ". Add at least " ++ shortfall.render ++ " to the reserve."))
    throw (.insufficientReserve payout pool.reserve shortfall)
  let recipient := (← ledgerUser stake.userId).walletAddress
  let label := match kind with
    | .reward => "reward"
    | .insurance => "insurance"
  let txHash ← transferOut limits pool recipient payout (claimComment kind stakeId)
  let stake := stake.paid kind
  let pool := { pool with reserve := ← checked (pool.reserve.sub debit) }
  let pool ← try persistClaim stake pool
    catch e =>
      logAt .error "❌ Transfer sent but ledger update failed, reconcile manually"
        [("stake", toString stakeId), ("tx", txHash), ("error", e.message)]
      throw e
  logAt .info ("✅ Paid " ++ label)
    [("stake", toString stakeId), ("pool", toString poolId), ("amount", payout.render),
      ("reserve", pool.reserve.render), ("tx", txHash)]
  recordOperation (if kind == .reward then .rewardClaimed else .insuranceClaimed) stake.userId
    ("Paid " ++ label ++ " " ++ payout.render ++ " for stake #" ++ toString stakeId ++ " (tx " ++
      txHash ++ ")")
  pure { stakeId := some stakeId, poolId, recipient, amount := payout, txHash }

/-- The owner takes back what the reserve holds beyond what closed stakes are owed. -/
def withdrawReserve (limits : CallLimits) (poolId requester : Nat) : LedgerT m Payout := do
  let pool ← ledgerPool poolId
  if pool.ownerId != requester then throw (.notOwner poolId requester)
  if pool.reserve ≤ Decimal.zero then
    throw (.invalidParameter ("pool #" ++ toString poolId ++ " has no reserve"))
  if pool.isActive then throw (.poolStillActive poolId)
  if !pool.isCommissionPaid then throw (.commissionUnpaid poolId)
  let stakes ← poolStakes poolId
  let active := (stakes.filter (·.isActive)).length
  if active > 0 then throw (.activeStakesRemain poolId active)
  let liabilities ← checked (outstandingLiability pool stakes)
  if pool.reserve < liabilities then
    let shortfall ← checked (liabilities.sub pool.reserve)
    logAt .warn "⚠️  Withdrawal refused: liabilities exceed reserve"
      [("pool", toString poolId), ("liabilities", liabilities.render),
        ("reserve", pool.reserve.render), ("shortfall", shortfall.render)]
    throw (.insufficientReserve liabilities pool.reserve shortfall)
  let amount ← checked (pool.reserve.sub liabilities)
  if amount.isZero then
    throw (.invalidParameter ("pool #" ++ toString poolId ++ " reserve is fully owed to stakers"))
  let recipient := (← ledgerUser pool.ownerId).walletAddress
  let txHash ← transferOut limits pool recipient amount
    ("Reserve withdrawal from pool #" ++ toString poolId)
  let pool := { pool with reserve := Decimal.zero, tempReserve := liabilities.neg }
  try io (updatePool pool)
  catch e =>
    logAt .error "❌ Transfer sent but ledger update failed, reconcile manually"
      [("pool", toString poolId), ("tx", txHash), ("error", e.message)]
    throw e
  logAt .info "🏧 Reserve withdrawn"
    [("pool", toString poolId), ("amount", amount.render), ("tx", txHash)]
  recordOperation .reserveWithdrawn pool.ownerId
    ("Withdrew " ++ amount.render ++ " from pool #" ++ toString poolId ++ " (tx " ++ txHash ++ ")")
  pure { stakeId := none, poolId, recipient, amount, txHash }

end

end PoolTreasury
