import Mathlib.Logic.Relation
import PoolTreasury.Proofs.Run.Holds
import PoolTreasury.Proofs.Decimal.Value

/-! # What one operation does to the state

`OpStep op s r s'` lists what running `op` from `s` may leave: the tables and the transfers
either stay as they were, or the operation made the writes its checks allow and, for a
payout, sent one transfer. Each write comes with the checks the code makes before it, so an
invariant of the store is proved once per constructor, never by running an operation.

An overflow can cut an operation short after it wrote or sent something. Only two such
points exist: the accrual pass, which keeps the stakes it already handled, and a claim,
whose debit and liabilities are computed after its transfer succeeded. The second is the
constructor `claimSent`, the only one whose outcome is fixed.
-/

namespace PoolTreasury

/-- What an operation answers: an overflow, a refusal of the ledger, or success. -/
abbrev Outcome := Except Overflow (Except LedgerError Unit)

/-- The record `createPool` saves, before the store gives it an id. -/
def NewPool.toPool (params : NewPool) (now : Instant) : Pool :=
  { id := 0, ownerId := params.ownerId, depositAddress := params.depositAddress,
    tokenMaster := params.tokenMaster, reserve := params.reserveDeposit,
    tempReserve := params.reserveDeposit, rewardPercent := params.rewardPercent,
    periodDays := params.periodDays, coatingPercent := params.coatingPercent,
    isActive := false, isCommissionPaid := false, createdAt := now }

/-- The record `createStake` saves, before the store gives it an id. -/
def Stake.opening (userId poolId : Nat) (amount price : Decimal) (periodDays : Nat)
    (start : Instant) : Stake :=
  { id := 0, userId, poolId, amount, balance := amount, startDate := start,
    endDate := Stake.termEnd start periodDays, closeDate := none, isActive := true,
    openPrice := price, closePrice := none, isRewardPaid := false, isInsurancePaid := false }

/-- The stakes of a pool, as `poolStakes` lists them. -/
def MemoryTables.stakesOf (t : MemoryTables) (poolId : Nat) : List Stake :=
  t.stakes.filter (·.poolId == poolId)

/-! ## Claims and withdrawals -/

/-- What a claim pays out and what it debits from the reserve: the balance and the reward,
with the insurance added to both for an insurance claim. -/
def claimAmounts (p : Pool) (st : Stake) : ClaimKind → Except Overflow (Decimal × Decimal)
  | .reward => do pure (st.balance, ← st.accruedReward)
  | .insurance => do
    let insurance ← insuranceAmount p.reserve st.amount
    let payout ← st.balance.add insurance
    let reward ← st.accruedReward
    pure (payout, ← reward.add insurance)

@[simp] theorem Stake.paid_id (st : Stake) (kind : ClaimKind) : (st.paid kind).id = st.id := by
  cases kind <;> rfl

/-- Everything a claim on stake `sid` checks before it sends the payout. -/
structure ClaimChecks (t : MemoryTables) (sid : Nat) (kind : ClaimKind) (st : Stake) (p : Pool)
    (payout debit : Decimal) (u : User) : Prop where
  stake : t.findStake sid = some st
  pool : t.findPool st.poolId = some p
  unsettled : st.isSettled = false
  closed : st.isActive = false
  eligible : isInsuranceEligible p st = .ok (kind == .insurance)
  amounts : claimAmounts p st kind = .ok (payout, debit)
  covered : ¬ p.reserve < payout
  user : t.findUser st.userId = some u

/-- The transfer a claim sends. -/
def claimRequest (limits : CallLimits) (p : Pool) (u : User) (payout : Decimal) (kind : ClaimKind)
    (sid : Nat) : TransferRequest :=
  ⟨p.tokenMaster, u.walletAddress, payout, limits.decimals, claimComment kind sid⟩

/-- Everything a withdrawal from pool `pid` checks before it sends the surplus. -/
structure WithdrawChecks (t : MemoryTables) (pid requester : Nat) (p : Pool)
    (liabilities amount : Decimal) (u : User) : Prop where
  pool : t.findPool pid = some p
  owner : p.ownerId = requester
  positive : ¬ p.reserve ≤ Decimal.zero
  inactive : p.isActive = false
  paid : p.isCommissionPaid = true
  noneActive : ∀ st ∈ t.stakesOf pid, st.isActive = false
  owed : outstandingLiability p (t.stakesOf pid) = .ok liabilities
  covered : ¬ p.reserve < liabilities
  surplus : p.reserve.sub liabilities = .ok amount
  nonzero : amount.isZero = false
  user : t.findUser p.ownerId = some u

/-- The pool after a withdrawal: no reserve left, and the liabilities still owed. -/
def Pool.emptied (p : Pool) (liabilities : Decimal) : Pool :=
  { p with reserve := Decimal.zero, tempReserve := liabilities.neg }

/-- The transfer a withdrawal sends. -/
def withdrawRequest (limits : CallLimits) (p : Pool) (u : User) (amount : Decimal) (pid : Nat) :
    TransferRequest :=
  ⟨p.tokenMaster, u.walletAddress, amount, limits.decimals,
    "Reserve withdrawal from pool #" ++ toString pid⟩

/-! ## The accrual pass -/

/-- The stake closed at maturity at `now`, at the token's price then. -/
def Stake.closedAt (st : Stake) (now : Instant) (price : Decimal) : Stake :=
  { st with isActive := false, closeDate := some now, closePrice := some price }

@[simp] theorem Stake.closedAt_id (st : Stake) (now : Instant) (price : Decimal) :
    (st.closedAt now price).id = st.id := rfl

/-- One write of the accrual pass while it handles the listed stake `x`: a day of reward, the
closing at maturity, the pool's free reserve recomputed after a closing, or an operation
record. -/
inductive TickWrite (now : Instant) (x : Stake) : MemoryTables → MemoryTables → Prop
  | accrue {t : MemoryTables} {st : Stake} {p : Pool} {next : Decimal} :
      x.hasMatured now = false → t.findStake x.id = some st → st.isActive = true →
      t.findPool x.poolId = some p → nextBalance p st = .ok (some next) →
      TickWrite now x t (t.updateStake { st with balance := next }).2
  | close {t : MemoryTables} {st : Stake} {p : Pool} {price : Decimal} :
      x.hasMatured now = true → t.findStake x.id = some st → st.isActive = true →
      t.findPool x.poolId = some p →
      TickWrite now x t (t.updateStake (st.closedAt now price)).2
  | refresh {t : MemoryTables} {p : Pool} {free : Decimal} :
      t.findPool x.poolId = some p → freeReserve p (t.stakesOf x.poolId) = .ok free →
      TickWrite now x t (t.updatePool { p with tempReserve := free }).2
  | note {t t' : MemoryTables} : t.Logged t' → TickWrite now x t t'

/-- The pass over the listed stakes, one after another; an overflow ends it early, with the
writes made so far. -/
inductive TickRun (now : Instant) : List Stake → MemoryTables → MemoryTables → Prop
  | stop {xs : List Stake} {t : MemoryTables} : TickRun now xs t t
  | next {x : Stake} {xs : List Stake} {t t' t'' : MemoryTables} :
      Relation.ReflTransGen (TickWrite now x) t t' → TickRun now xs t' t'' →
      TickRun now (x :: xs) t t''

/-! ## Operations -/

/-- What running an operation from `s` may answer and leave. -/
inductive OpStep : LedgerOp → RunState → Outcome → RunState → Prop
  | quiet {op : LedgerOp} {s s' : RunState} {r : Outcome} :
      s'.tables = s.tables → s'.transfers = s.transfers → OpStep op s r s'
  | registerUser {a : String} {s s' : RunState} {r : Outcome} :
      s'.tables = (s.tables.saveUser a s.clock).2 → s'.transfers = s.transfers →
      OpStep (.registerUser a) s r s'
  | createPool {params : NewPool} {s s' : RunState} {r : Outcome} {u : User} :
      validateNewPool params = none → s.tables.findUser params.ownerId = some u →
      (s.tables.savePool (params.toPool s.clock)).2.Logged s'.tables →
      s'.transfers = s.transfers → OpStep (.createPool params) s r s'
  | addReserve {pid : Nat} {amount : Decimal} {s s' : RunState} {r : Outcome} {p : Pool}
      {reserve free : Decimal} :
      ¬ amount ≤ Decimal.zero → s.tables.findPool pid = some p →
      p.reserve.add amount = .ok reserve →
      freeReserve { p with reserve } (s.tables.stakesOf p.id) = .ok free →
      (s.tables.updatePool { p with reserve, tempReserve := free }).2.Logged s'.tables →
      s'.transfers = s.transfers → OpStep (.addReserve pid amount) s r s'
  | payCommission {pid : Nat} {amount required : Decimal} {s s' : RunState} {r : Outcome}
      {p : Pool} :
      s.tables.findPool pid = some p → p.isCommissionPaid = false → ¬ amount < required →
      (s.tables.updatePool { p with isCommissionPaid := true }).2.Logged s'.tables →
      s'.transfers = s.transfers → OpStep (.payCommission pid amount required) s r s'
  | setActive {pid : Nat} {active : Bool} {s s' : RunState} {r : Outcome} {p : Pool} :
      s.tables.findPool pid = some p → (active = true → p.isCommissionPaid = true) →
      (s.tables.updatePool { p with isActive := active }).2.Logged s'.tables →
      s'.transfers = s.transfers → OpStep (.setActive pid active) s r s'
  | deletePool {pid : Nat} {s s' : RunState} {r : Outcome} {p : Pool} :
      s.tables.findPool pid = some p → p.reserve.isZero = true → p.isActive = false →
      (∀ st ∈ s.tables.stakesOf pid, st.isSettled = true) →
      (s.tables.deletePool pid).2.Logged s'.tables →
      s'.transfers = s.transfers → OpStep (.deletePool pid) s r s'
  | createStake {userId pid : Nat} {amount price : Decimal} {s s' : RunState} {r : Outcome}
      {u : User} {p : Pool} {principal : Decimal} :
      ¬ amount ≤ Decimal.zero → ¬ price < Decimal.zero → s.tables.findUser userId = some u →
      s.tables.findPool pid = some p → p.isActive = true →
      activePrincipal (s.tables.stakesOf pid) = .ok principal →
      fitsCapacity principal amount p.reserve = .ok true →
      (s.tables.saveStake (Stake.opening userId pid amount price p.periodDays s.clock)).2.Logged
        s'.tables →
      s'.transfers = s.transfers → OpStep (.createStake userId pid amount price) s r s'
  | tick {callMs : Nat} {now : Instant} {s s' : RunState} {r : Outcome} :
      TickRun now s.tables.activeStakes s.tables s'.tables → s'.transfers = s.transfers →
      OpStep (.tick callMs now) s r s'
  | claimSent {limits : CallLimits} {sid : Nat} {kind : ClaimKind} {s s' : RunState}
      {o : Overflow} {st : Stake} {p : Pool} {payout debit : Decimal} {u : User} :
      ClaimChecks s.tables sid kind st p payout debit u → s'.tables = s.tables →
      s'.transfers = s.transfers ++ [claimRequest limits p u payout kind sid] →
      OpStep (.claim limits sid kind) s (.error o) s'
  | claimSettled {limits : CallLimits} {sid : Nat} {kind : ClaimKind} {s s' : RunState}
      {r : Outcome} {st : Stake} {p : Pool} {payout debit reserve free : Decimal} {u : User} :
      ClaimChecks s.tables sid kind st p payout debit u → p.reserve.sub debit = .ok reserve →
      freeReserve { p with reserve }
        ((s.tables.stakesOf p.id).map fun x => if x.id == sid then st.paid kind else x) =
        .ok free →
      (s.tables.settleClaim (st.paid kind) { p with reserve, tempReserve := free }).2.Logged
        s'.tables →
      s'.transfers = s.transfers ++ [claimRequest limits p u payout kind sid] →
      OpStep (.claim limits sid kind) s r s'
  | withdraw {limits : CallLimits} {pid requester : Nat} {s s' : RunState} {r : Outcome}
      {p : Pool} {liabilities amount : Decimal} {u : User} :
      WithdrawChecks s.tables pid requester p liabilities amount u →
      (s.tables.updatePool (p.emptied liabilities)).2.Logged s'.tables →
      s'.transfers = s.transfers ++ [withdrawRequest limits p u amount pid] →
      OpStep (.withdrawReserve limits pid requester) s r s'

/-- The requirement that the outcome and the state afterwards be a step of `op` from `s`. -/
def Post.step {α : Type} (op : LedgerOp) (s : RunState) : Post α :=
  ⟨fun _ => OpStep op s (.ok (.ok ())), fun e => OpStep op s (.ok (.error e)),
    fun o => OpStep op s (.error o)⟩

/-- An operation whose computation ends in a step ends in that step when run. -/
theorem LedgerOp.exec_step_of_holds {op : LedgerOp} {s : RunState}
    (h : Holds op.action s (Post.step op s)) : OpStep op s (op.exec s).1 (op.exec s).2 := by
  unfold Holds at h
  unfold LedgerOp.exec
  split at h <;> rename_i heq <;> rw [heq] <;> exact h

/-- An operation whose computation is refused with `e` and leaves the state as it was is so
when run. -/
theorem LedgerOp.exec_of_refused {op : LedgerOp} {s : RunState} {e : LedgerError}
    (h : Holds op.action s ⟨fun _ _ => False, fun e' s' => e' = e ∧ s' = s, fun _ _ => False⟩) :
    op.exec s = (.ok (.error e), s) := by
  unfold Holds at h
  unfold LedgerOp.exec
  split at h <;> rename_i heq <;> rw [heq]
  · exact h.elim
  · rw [h.1, h.2]
  · exact h.elim

theorem holds_discard_step {α : Type} {x : LedgerT RunM α} {op : LedgerOp} {s : RunState} :
    Holds (discard x) s (Post.step op s) ↔ Holds x s (Post.step op s) :=
  holds_discard

/-- A step of `op` from `s` that is refused only before it writes or sends: every refusal leaves
the tables and the transfers as they were. -/
def Post.keptStep {α : Type} (op : LedgerOp) (s : RunState) : Post α :=
  { Post.step op s with refused := fun _ s' => s'.tables = s.tables ∧ s'.transfers = s.transfers }

/-- A refusal that keeps the tables and the transfers is a step. -/
theorem Holds.step_of_keptStep {α : Type} {x : LedgerT RunM α} {op : LedgerOp} {s : RunState}
    (h : Holds x s (Post.keptStep op s)) : Holds x s (Post.step op s) :=
  h.mono (fun _ _ h => h) (fun _ _ h => OpStep.quiet h.1 h.2) (fun _ _ h => h)

end PoolTreasury
