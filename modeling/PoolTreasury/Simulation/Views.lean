import PoolTreasury.Treasury.Commands
import PoolTreasury.Treasury.Settlement
import PoolTreasury.Treasury.Accrual

/-! # Client views of the ledger

What a client of a simulated node sees of records and outcomes, as JSON. Decimals are
strings in their written form, so that their scale shows. A stake shows its term and,
once closed, the whole days it ran, in place of its dates.
-/

namespace PoolTreasury

def decimalView (d : Decimal) : Json := .string d.render

def User.view (u : User) : Json :=
  .object [("id", Json.ofNat u.id), ("wallet_address", .string u.walletAddress)]

def Pool.view (p : Pool) : Json :=
  .object [("id", Json.ofNat p.id), ("owner_id", Json.ofNat p.ownerId),
    ("deposit_address", .string p.depositAddress), ("token_master", .string p.tokenMaster),
    ("reserve", decimalView p.reserve), ("temp_reserve", decimalView p.tempReserve),
    ("reward_percent", decimalView p.rewardPercent), ("period_days", Json.ofNat p.periodDays),
    ("insurance_coating_percent", decimalView p.coatingPercent), ("is_active", .bool p.isActive),
    ("is_commission_paid", .bool p.isCommissionPaid)]

/-- Whole days from `start` to `stop`, rounded down. -/
def wholeDays (start stop : Instant) : Int :=
  stop.since start / (secondsPerDay * nanosPerSecond)

/-- Whole seconds from `start` to `stop`, rounded toward zero. -/
def wholeSeconds (start stop : Instant) : Int :=
  Int.tdiv (stop.since start) nanosPerSecond

def Stake.view (s : Stake) : Json :=
  .object [("id", Json.ofNat s.id), ("user_id", Json.ofNat s.userId), ("pool_id", Json.ofNat s.poolId),
    ("amount", decimalView s.amount), ("balance", decimalView s.balance),
    ("term_seconds", Json.ofInt (wholeSeconds s.startDate s.endDate)),
    ("closed_after_days", Json.opt (fun c => Json.ofInt (wholeDays s.startDate c)) s.closeDate),
    ("is_active", .bool s.isActive), ("deposit_creation_price", decimalView s.openPrice),
    ("jetton_price_closed", Json.opt decimalView s.closePrice),
    ("is_reward_paid", .bool s.isRewardPaid), ("is_insurance_paid", .bool s.isInsurancePaid)]

def Operation.view (o : Operation) : Json :=
  .object [("id", Json.ofNat o.id), ("kind", .string o.kind.name), ("user_id", Json.ofNat o.userId),
    ("description", .string o.description)]

def PoolSummary.view (s : PoolSummary) : Json :=
  .object [("pool", s.pool.view), ("active_stakes", Json.ofNat s.activeStakes),
    ("active_principal", decimalView s.activePrincipal), ("capacity_left", decimalView s.capacityLeft),
    ("outstanding_liability", decimalView s.outstandingLiability),
    ("temp_reserve", decimalView s.tempReserve)]

def Payout.view (p : Payout) : Json :=
  .object [("stake_id", Json.opt Json.ofNat p.stakeId), ("pool_id", Json.ofNat p.poolId),
    ("recipient", .string p.recipient), ("amount", decimalView p.amount), ("tx_hash", .string p.txHash)]

def TickReport.view (r : TickReport) : Json :=
  .object [("scanned", Json.ofNat r.scanned), ("accrued", Json.ofNat r.accrued),
    ("capped", Json.ofNat r.capped), ("closed", Json.ofNat r.closed), ("skipped", Json.ofNat r.skipped),
    ("failed", Json.ofNat r.failed)]

def CommandOutcome.view : CommandOutcome → Json
  | .poolCreated p => .object [("pool_created", p.view)]
  | .reserveAdded id r =>
    .object [("reserve_added", .object [("pool_id", Json.ofNat id), ("reserve", decimalView r)])]
  | .stakeCreated s => .object [("stake_created", s.view)]
  | .commissionPaid p => .object [("commission_paid", p.view)]

def TransferRequest.view (t : TransferRequest) : Json :=
  .object [("token_master", .string t.tokenMaster), ("destination", .string t.destination),
    ("amount", decimalView t.amount), ("decimals", Json.ofNat t.decimals), ("comment", .string t.comment)]

def Notification.view : Notification → Json
  | .stakeClosed s m =>
    .object [("type", .string "stake_closed"), ("recipient", Json.ofNat s.userId), ("message", .string m),
      ("stake", s.view)]
  | .user u m => .object [("type", .string "user"), ("recipient", Json.ofNat u), ("message", .string m)]

/-- A refusal with the name of its cause and its text. -/
def failureView (variant message : String) : Json :=
  .object [("error", .string variant), ("message", .string message)]

def StoreError.view (e : StoreError) : Json := failureView e.variant e.message

def LedgerError.view (e : LedgerError) : Json :=
  .object [("error", .string e.variant), ("message", .string e.message), ("kind", .string e.kind.name),
    ("retriable", .bool e.isRetriable)]

def succeeded (v : Json) : Json := .object [("ok", v)]

end PoolTreasury
