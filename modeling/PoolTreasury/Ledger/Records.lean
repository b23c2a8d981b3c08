import PoolTreasury.Decimal.Arith
import PoolTreasury.Time.Instant

/-! # Ledger records

Users, pools, stakes and the operation log. Instants are UTC seconds and nanoseconds;
a stake's term is `periodDays` days from its start. A stake is *settled* once either
payout was made, and *awaits settlement* when it is closed and not settled.
-/

namespace PoolTreasury

structure User where
  id : Nat
  walletAddress : String
  createdAt : Instant
deriving DecidableEq, Repr

structure Pool where
  id : Nat
  ownerId : Nat
  /-- The treasury's token wallet that receives this pool's deposits. -/
  depositAddress : String
  tokenMaster : String
  reserve : Decimal
  /-- The reserve less what closed, unsettled stakes are owed. -/
  tempReserve : Decimal
  /-- Reward per day, in percent of the principal. -/
  rewardPercent : Decimal
  periodDays : Nat
  /-- The price drop, in percent, past which a closed stake is insured. -/
  coatingPercent : Decimal
  isActive : Bool
  isCommissionPaid : Bool
  createdAt : Instant
deriving DecidableEq, Repr

structure Stake where
  id : Nat
  userId : Nat
  poolId : Nat
  amount : Decimal
  /-- Principal plus the reward accrued so far. -/
  balance : Decimal
  startDate : Instant
  endDate : Instant
  closeDate : Option Instant
  isActive : Bool
  /-- The token's price when the stake was opened. -/
  openPrice : Decimal
  /-- The token's price when the stake closed. -/
  closePrice : Option Decimal
  isRewardPaid : Bool
  isInsurancePaid : Bool
deriving DecidableEq, Repr

namespace Stake

/-- The end of a term of `days` days from `start`. -/
def termEnd (start : Instant) (days : Nat) : Instant :=
  start.addSeconds (days * secondsPerDay)

/-- The end of the term as the clock computes it: a date past the clock's range fails the
addition. -/
def termEnd? (start : Instant) (days : Nat) : Except Overflow Instant :=
  if (termEnd start days).inRange then .ok (termEnd start days) else .error .dateAddition

theorem termEnd?_eq_ok {start e : Instant} {days : Nat} (h : termEnd? start days = .ok e) :
    e = termEnd start days := by
  unfold termEnd? at h
  split at h
  · cases h
    rfl
  · cases h

def isSettled (s : Stake) : Bool := s.isRewardPaid || s.isInsurancePaid

def awaitsSettlement (s : Stake) : Bool := !s.isActive && !s.isSettled

def hasMatured (s : Stake) (now : Instant) : Bool := s.endDate ≤ now

/-- The reward on top of the principal. -/
def accruedReward (s : Stake) : Except Overflow Decimal := s.balance.sub s.amount

@[simp] theorem awaitsSettlement_eq (s : Stake) :
    s.awaitsSettlement = (!s.isActive && !s.isRewardPaid && !s.isInsurancePaid) := by
  simp [awaitsSettlement, isSettled, Bool.and_assoc]

end Stake

/-- What an operation record reports. -/
inductive OperationKind where
  | poolCreated
  | reserveAdded
  | commissionPaid
  | poolActivated
  | poolDeactivated
  | poolDeleted
  | stakeCreated
  | stakeClosed
  | rewardClaimed
  | insuranceClaimed
  | reserveWithdrawn
deriving DecidableEq, Repr

namespace OperationKind

/-- The kind as written in descriptions and records. -/
def name : OperationKind → String
  | .poolCreated => "pool_created"
  | .reserveAdded => "reserve_added"
  | .commissionPaid => "commission_paid"
  | .poolActivated => "pool_activated"
  | .poolDeactivated => "pool_deactivated"
  | .poolDeleted => "pool_deleted"
  | .stakeCreated => "stake_created"
  | .stakeClosed => "stake_closed"
  | .rewardClaimed => "reward_claimed"
  | .insuranceClaimed => "insurance_claimed"
  | .reserveWithdrawn => "reserve_withdrawn"

def all : List OperationKind :=
  [.poolCreated, .reserveAdded, .commissionPaid, .poolActivated, .poolDeactivated,
    .poolDeleted, .stakeCreated, .stakeClosed, .rewardClaimed, .insuranceClaimed,
    .reserveWithdrawn]

/-- The stored form of a kind: its name in upper camel case. -/
def storedName (k : OperationKind) : String :=
  String.join ((k.name.splitOn "_").map String.capitalize)

/-- The kind whose stored form is `s`. -/
def ofStoredName? (s : String) : Option OperationKind :=
  all.find? fun k => k.storedName == s

end OperationKind

/-- An entry of the append-only operation log. -/
structure Operation where
  id : Nat
  kind : OperationKind
  description : String
  userId : Nat
  createdAt : Instant
deriving DecidableEq, Repr

end PoolTreasury
