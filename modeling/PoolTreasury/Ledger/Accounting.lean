import PoolTreasury.Ledger.Records

/-! # Reserve accounting

The numbers every part of the treasury agrees on:

* a reserve backs outstanding principal up to a tenth of itself, exclusive;
* a closed stake whose price fell past the pool's coating is owed its balance plus an
  insurance of `⌈9 · amount⌉`, any other closed stake its accrued reward;
* the free reserve (`tempReserve`) is the reserve less what closed, unsettled stakes are
  owed, the sum floored at zero;
* a stake earns `amount · rewardPercent / 100` a day, until its balance reaches the cap
  `daily · periodDays + amount`.

Every step that can overflow reports it, in the order the computation runs.
-/

namespace PoolTreasury

namespace Decimal

/-- `0.1`, the share of the reserve that may back principal. -/
def capacityRatio : Decimal := ⟨1, 1, false, one.mantissa_lt, by decide⟩

/-- `0.9`, the share of the reserve set aside for insurance. -/
def insuranceShare : Decimal := ⟨9, 1, false, by decide, capacityRatio.scale_le⟩

/-- The price change reported when the opening price is zero. -/
def priceChangeSentinel : Decimal := ⟨1000000000, 0, false, by decide, zero.scale_le⟩

end Decimal

open Decimal in
/-- The exclusive bound on the principal a reserve backs. -/
def capacityLimit (reserve : Decimal) : Except Overflow Decimal :=
  reserve.mul capacityRatio

/-- A new stake fits when `active + amount < reserve / 10`. -/
def fitsCapacity (active amount reserve : Decimal) : Except Overflow Bool := do
  let total ← active.add amount
  let limit ← capacityLimit reserve
  pure (decide (total < limit))

/-- Room left under the bound, never below zero. -/
def capacityLeft (active reserve : Decimal) : Except Overflow Decimal := do
  let limit ← capacityLimit reserve
  let room ← limit.sub active
  pure (room.max Decimal.zero)

/-- `(closed − open) / open × 100`. Two zero prices give zero; a zero opening price gives
the sentinel with the closing price's sign; a quotient or product out of range gives the
sentinel, positive when the price rose. -/
def percentPriceChange (closed opening : Decimal) : Except Overflow Decimal :=
  if opening.isZero then
    if closed.isZero then .ok Decimal.zero
    else if closed.negative then .ok Decimal.priceChangeSentinel.neg
    else .ok Decimal.priceChangeSentinel
  else do
    let diff ← closed.sub opening
    match (diff.div? opening).bind (·.mul? Decimal.hundred) with
    | some change => pure change
    | none =>
      pure (if opening < closed then Decimal.priceChangeSentinel
        else Decimal.priceChangeSentinel.neg)

/-- The insurance on a stake of `amount`: `⌈(0.9 · reserve) · amount / (0.1 · reserve)⌉`,
which is `⌈9 · amount⌉` written so that the product is formed before the quotient. A
reserve that is not positive, or a product or quotient out of range, uses
`⌈amount · 0.9 · 10⌉`. -/
def insuranceAmount (reserve amount : Decimal) : Except Overflow Decimal := do
  let reduced : Except Overflow Decimal := do
    let a ← amount.mul Decimal.insuranceShare
    a.mul Decimal.ten
  if reserve ≤ Decimal.zero then
    let r ← reduced
    r.ceil
  else
    let share ← Decimal.insuranceShare.mul reserve
    let backed? ← match share.mul? amount with
      | none => pure none
      | some backed => do
        let capacity ← Decimal.capacityRatio.mul reserve
        pure (backed.div? capacity)
    let value ← match backed? with
      | some v => pure v
      | none => reduced
    value.ceil

/-- The price change of a closed stake. -/
def stakePriceChange (s : Stake) : Except Overflow (Option Decimal) :=
  match s.closePrice with
  | none => .ok none
  | some closed => (percentPriceChange closed s.openPrice).map some

/-- The price fell past the coating. -/
def isInsuranceEligible (p : Pool) (s : Stake) : Except Overflow Bool := do
  match ← stakePriceChange s with
  | none => pure false
  | some change => pure (decide (change < p.coatingPercent.neg))

/-- What the reserve owes a closed, unsettled stake: its reward, plus the insurance when
it is eligible. -/
def stakeLiability (p : Pool) (s : Stake) : Except Overflow Decimal := do
  let reward ← s.accruedReward
  if ← isInsuranceEligible p s then
    let insurance ← insuranceAmount p.reserve s.amount
    insurance.add reward
  else pure reward

/-- The stakes of the pool that await settlement. -/
def owedStakes (p : Pool) (stakes : List Stake) : List Stake :=
  stakes.filter fun s => s.poolId == p.id && s.awaitsSettlement

/-- The liabilities of the stakes that await settlement, summed and floored at zero. -/
def outstandingLiability (p : Pool) (stakes : List Stake) : Except Overflow Decimal := do
  let owed ← (owedStakes p stakes).mapM (stakeLiability p)
  let total ← owed.foldlM Decimal.add Decimal.zero
  pure (total.max Decimal.zero)

/-- The reserve less the outstanding liability. -/
def freeReserve (p : Pool) (stakes : List Stake) : Except Overflow Decimal := do
  let owed ← outstandingLiability p stakes
  p.reserve.sub owed

/-- The reward added per day. -/
def dailyBonus (amount rewardPercent : Decimal) : Except Overflow Decimal := do
  let x ← amount.mul rewardPercent
  x.div Decimal.hundred

/-- The largest balance a stake reaches: `daily · periodDays + amount`. -/
def accrualCap (amount rewardPercent : Decimal) (periodDays : Nat) : Except Overflow Decimal := do
  let bonus ← dailyBonus amount rewardPercent
  let total ← bonus.mul (Decimal.ofNat periodDays)
  total.add amount

/-- The balance after one more day, or `none` once the cap is reached. -/
def nextBalance (p : Pool) (s : Stake) : Except Overflow (Option Decimal) := do
  let cap ← accrualCap s.amount p.rewardPercent p.periodDays
  if cap ≤ s.balance then pure none
  else
    let bonus ← dailyBonus s.amount p.rewardPercent
    let next ← s.balance.add bonus
    pure (some (next.min cap))

/-- The principal of the stakes still active. -/
def activePrincipal (stakes : List Stake) : Except Overflow Decimal :=
  ((stakes.filter (·.isActive)).map (·.amount)).foldlM Decimal.add Decimal.zero

end PoolTreasury
