import PoolTreasury.Treasury.Ledger

/-! # Daily accrual and closing at maturity

One pass walks the active index. A matured stake is closed at the token's current price,
looked up once per token per pass; the others earn one day of reward, up to the
contractual cap. Each stake is handled on its own: a missing price skips it until the
next pass, and any other failure is counted and logged. Only a failure to list the
active stakes fails the pass.
-/

namespace PoolTreasury

/-- Counts of one pass. -/
structure TickReport where
  scanned : Nat := 0
  accrued : Nat := 0
  capped : Nat := 0
  closed : Nat := 0
  skipped : Nat := 0
  failed : Nat := 0
deriving DecidableEq, Repr

def TickReport.debugText (r : TickReport) : String :=
  "TickReport \x7b scanned: " ++ toString r.scanned ++ ", accrued: " ++ toString r.accrued ++
    ", capped: " ++ toString r.capped ++ ", closed: " ++ toString r.closed ++ ", skipped: " ++
    toString r.skipped ++ ", failed: " ++ toString r.failed ++ " \x7d"

inductive StakeOutcome where
  | accrued
  | capped
  | closed
  | skipped
deriving DecidableEq, Repr

/-- The message sent to a staker whose stake closed. -/
def closingMessage (pool : Pool) (stake : Stake) : Except Overflow String := do
  let change := ((← stakePriceChange stake).getD Decimal.zero).roundDp 2
  if ← isInsuranceEligible pool stake then
    pure ("Stake #" ++ toString stake.id ++ " in pool #" ++ toString pool.id ++
      " has matured. The token price moved " ++ change.render ++ "%, past the " ++
      pool.coatingPercent.render ++ "% coating: insurance can be claimed.")
  else
    pure ("Stake #" ++ toString stake.id ++ " in pool #" ++ toString pool.id ++
      " has matured with balance " ++ stake.balance.render ++ ". The reward can be claimed.")

section

variable {m : Type → Type} [Monad m] [MonadLog m] [MonadLedgerStore m] [MonadClock m]
  [MonadExceptOf Overflow m] [MonadPriceOracle m] [MonadNotify m]

open MonadLedgerStore

/-- A token's price, from the pass's cache or the oracle; a looked-up price joins the cache. -/
def lookupPrice (callMs : Nat) (token : String) (cache : List (String × Decimal)) :
    LedgerT m (Decimal × List (String × Decimal)) := do
  match cache.find? (·.1 == token) with
  | some (_, p) => pure (p, cache)
  | none =>
    let p ← bounded "price lookup" .oracle (MonadPriceOracle.usdPrice callMs token)
    pure (p, cache ++ [(token, p)])

def closeStake (stakeId poolId : Nat) (price : Decimal) (now : Instant) : LedgerT m StakeOutcome := do
  let stake ← ledgerStake stakeId
  if !stake.isActive then return .skipped
  let stake := { stake with isActive := false, closeDate := some now, closePrice := some price }
  io (updateStake stake)
  let pool ← refreshTempReserve (← ledgerPool poolId)
  io (updatePool pool)
  let message ← checked (closingMessage pool stake)
  logAt .info "🔒 Stake closed at maturity"
    [("stake", toString stake.id), ("pool", toString poolId), ("balance", stake.balance.render),
      ("price", price.render), ("temp_reserve", pool.tempReserve.render)]
  recordOperation .stakeClosed stake.userId message
  MonadNotify.publish (.stakeClosed stake message)
  pure .closed

def processStake (callMs : Nat) (stake : Stake) (now : Instant) (cache : List (String × Decimal)) :
    LedgerT m (StakeOutcome × List (String × Decimal)) := do
  let pool ← ledgerPool stake.poolId
  if stake.hasMatured now then
    let priced ← try
        let found ← lookupPrice callMs pool.tokenMaster cache
        pure (some found)
      catch e =>
        logAt .warn "⚠️  No price for matured stake, closing next tick"
          [("stake", toString stake.id), ("token", pool.tokenMaster), ("error", e.message)]
        pure none
    match priced with
    | none => pure (.skipped, cache)
    | some (price, cache) => pure (← closeStake stake.id pool.id price now, cache)
  else
    let stake ← ledgerStake stake.id
    if !stake.isActive then return (.skipped, cache)
    match ← checked (nextBalance pool stake) with
    | some balance =>
      let stake := { stake with balance }
      io (updateStake stake)
      logAt .debug "Reward accrued" [("stake", toString stake.id), ("balance", balance.render)]
      pure (.accrued, cache)
    | none => pure (.capped, cache)

def tallyStakes (callMs : Nat) (now : Instant) :
    List Stake → TickReport → List (String × Decimal) → m TickReport
  | [], report, _ => pure report
  | stake :: rest, report, cache => do
    match ← (processStake callMs stake now cache).run with
    | .ok (outcome, cache) =>
      let report := match outcome with
        | .accrued => { report with accrued := report.accrued + 1 }
        | .capped => { report with capped := report.capped + 1 }
        | .closed => { report with closed := report.closed + 1 }
        | .skipped => { report with skipped := report.skipped + 1 }
      tallyStakes callMs now rest report cache
    | .error e =>
      logAt .warn "⚠️  Stake update failed, retrying next tick"
        [("stake", toString stake.id), ("error", e.message)]
      tallyStakes callMs now rest { report with failed := report.failed + 1 } cache

/-- One pass over all active stakes at `now`. -/
def accrualTick (callMs : Nat) (now : Instant) : LedgerT m TickReport := do
  let stakes ← io listActiveStakes
  let report ← (tallyStakes callMs now stakes { scanned := stakes.length } [] : m _)
  if report.closed > 0 || report.failed > 0 then
    logAt .info "⏱️  Accrual tick"
      [("scanned", toString report.scanned), ("accrued", toString report.accrued),
        ("closed", toString report.closed), ("skipped", toString report.skipped),
        ("failed", toString report.failed)]
  pure report

/-- Runs `ticks` passes at `now`, as the periodic scheduler does before it is stopped. -/
def runScheduler (callMs : Nat) (now : Instant) : Nat → m Unit
  | 0 => logAt .info "Accrual scheduler stopped"
  | n + 1 => do
    match ← (accrualTick callMs now).run with
    | .ok report => logAt .debug "Accrual tick finished" [("report", report.debugText)]
    | .error e => logAt .error "❌ Accrual tick failed" [("error", e.message)]
    runScheduler callMs now n

end

end PoolTreasury
