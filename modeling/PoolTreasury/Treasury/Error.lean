import PoolTreasury.Store.Error
import PoolTreasury.Market.Quote
import PoolTreasury.Wallet.Units

/-! # Ledger errors

Every refusal of the ledger names its cause. Each cause falls in one kind, and the kind
decides whether the same call may succeed later unchanged: unavailable services,
storage failures and a short reserve may pass on retry, everything else will not.
-/

namespace PoolTreasury

inductive ErrorKind where
  | validation
  | notFound
  | capacityExceeded
  | insufficientReserve
  | alreadySettled
  | externalUnavailable
  | storage
deriving DecidableEq, Repr

def ErrorKind.name : ErrorKind → String
  | .validation => "Validation"
  | .notFound => "NotFound"
  | .capacityExceeded => "CapacityExceeded"
  | .insufficientReserve => "InsufficientReserve"
  | .alreadySettled => "AlreadySettled"
  | .externalUnavailable => "ExternalUnavailable"
  | .storage => "Storage"

inductive LedgerError where
  | invalidParameter (detail : String)
  | poolNotFound (pool : Nat)
  | stakeNotFound (stake : Nat)
  | userNotFound (user : Nat)
  | poolInactive (pool : Nat)
  | commissionUnpaid (pool : Nat)
  | reserveNotEmpty (pool : Nat)
  | poolStillActive (pool : Nat)
  | unsettledStakesExist (pool : Nat)
  | activeStakesRemain (pool count : Nat)
  | notOwner (pool user : Nat)
  | stakeStillActive (stake : Nat)
  | insuranceEligible (stake : Nat)
  | notInsuranceEligible (stake : Nat)
  | capacityExceeded (pool : Nat) (requested available : Decimal)
  | insufficientReserve (required available shortfall : Decimal)
  | alreadySettled (stake : Nat)
  | oracle (e : OracleError)
  | transfer (e : TransferError)
  | timeout (what : String)
  | storage (e : StoreError)
deriving DecidableEq, Repr

namespace LedgerError

def message : LedgerError → String
  | .invalidParameter d => "Invalid parameter: " ++ d
  | .poolNotFound p => "Pool " ++ toString p ++ " not found"
  | .stakeNotFound s => "Stake " ++ toString s ++ " not found"
  | .userNotFound u => "User " ++ toString u ++ " not found"
  | .poolInactive p => "Pool " ++ toString p ++ " is not accepting stakes"
  | .commissionUnpaid p => "Commission for pool " ++ toString p ++ " is unpaid"
  | .reserveNotEmpty p => "Pool " ++ toString p ++ " still holds reserve"
  | .poolStillActive p => "Pool " ++ toString p ++ " is still active"
  | .unsettledStakesExist p => "Pool " ++ toString p ++ " has unsettled stakes"
  | .activeStakesRemain p c =>
    "Pool " ++ toString p ++ " still has " ++ toString c ++ " active stakes"
  | .notOwner p u => "User " ++ toString u ++ " does not own pool " ++ toString p
  | .stakeStillActive s => "Stake " ++ toString s ++ " has not matured"
  | .insuranceEligible s => "Stake " ++ toString s ++ " qualifies for insurance, not reward"
  | .notInsuranceEligible s => "Stake " ++ toString s ++ " does not qualify for insurance"
  | .capacityExceeded p r a =>
    "Capacity exceeded on pool " ++ toString p ++ ": requested " ++ r.render ++ ", room left " ++
      a.render
  | .insufficientReserve r a s =>
    "Insufficient reserve: required " ++ r.render ++ ", available " ++ a.render ++
      ", shortfall " ++ s.render
  | .alreadySettled s => "Stake " ++ toString s ++ " is already settled"
  | .oracle e => "Price oracle unavailable: " ++ e.message
  | .transfer e => "Transfer failed: " ++ e.message
  | .timeout what => what ++ " timed out"
  | .storage e => "Storage error: " ++ e.message

def variant : LedgerError → String
  | .invalidParameter _ => "InvalidParameter"
  | .poolNotFound _ => "PoolNotFound"
  | .stakeNotFound _ => "StakeNotFound"
  | .userNotFound _ => "UserNotFound"
  | .poolInactive _ => "PoolInactive"
  | .commissionUnpaid _ => "CommissionUnpaid"
  | .reserveNotEmpty _ => "ReserveNotEmpty"
  | .poolStillActive _ => "PoolStillActive"
  | .unsettledStakesExist _ => "UnsettledStakesExist"
  | .activeStakesRemain .. => "ActiveStakesRemain"
  | .notOwner .. => "NotOwner"
  | .stakeStillActive _ => "StakeStillActive"
  | .insuranceEligible _ => "InsuranceEligible"
  | .notInsuranceEligible _ => "NotInsuranceEligible"
  | .capacityExceeded .. => "CapacityExceeded"
  | .insufficientReserve .. => "InsufficientReserve"
  | .alreadySettled _ => "AlreadySettled"
  | .oracle _ => "Oracle"
  | .transfer _ => "Transfer"
  | .timeout _ => "Timeout"
  | .storage _ => "Storage"

def kind : LedgerError → ErrorKind
  | .invalidParameter _ | .poolInactive _ | .commissionUnpaid _ | .reserveNotEmpty _
  | .poolStillActive _ | .unsettledStakesExist _ | .activeStakesRemain .. | .notOwner ..
  | .stakeStillActive _ | .insuranceEligible _ | .notInsuranceEligible _ => .validation
  | .poolNotFound _ | .stakeNotFound _ | .userNotFound _ => .notFound
  | .capacityExceeded .. => .capacityExceeded
  | .insufficientReserve .. => .insufficientReserve
  | .alreadySettled _ => .alreadySettled
  | .oracle _ | .transfer _ | .timeout _ => .externalUnavailable
  | .storage (.notFound ..) => .notFound
  | .storage _ => .storage

/-- The errors beneath this one, the nearest first. -/
def sources : LedgerError → List String
  | .oracle e => e.message :: e.sources
  | .transfer e => e.message :: e.sources
  | .storage e => [e.message]
  | _ => []

/-- Whether the same call may succeed later without any change of input. -/
def isRetriable (e : LedgerError) : Bool :=
  match e.kind with
  | .externalUnavailable | .storage | .insufficientReserve => true
  | _ => false

end LedgerError

end PoolTreasury
