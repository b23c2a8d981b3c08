import PoolTreasury.Proofs.Run.Step
import PoolTreasury.Proofs.Decimal.Range

/-! # What the payouts write and send

A claim or a withdrawal checks everything it needs, sends one transfer, and only then writes
the ledger. Before the transfer nothing is written; a transfer that times out or fails is
not kept and leaves the tables as they were. After an accepted transfer a withdrawal always
writes its pool, while a claim can still overflow computing the debit or the free reserve,
and then keeps the transfer without writing anything.

Each payout is walked once. `claim_settles` lists what a claim may end in. `withdrawReserve_exits`
lists every exit of a withdrawal, with the check that stopped it. The step lemmas, and the
lemmas about refusals elsewhere, are read off these two.
-/

namespace PoolTreasury

variable (s : RunState)

/-- The amounts of a claim: a claim of the kind the eligibility allows gets `claimAmounts`,
or overflows on the way; any other is refused. Nothing is written. -/
theorem holds_claimDue {sid : Nat} {kind : ClaimKind} {eligible : Bool} {p : Pool} {st : Stake}
    {Q : Post (Decimal × Decimal)} (hrefused : ∀ e, Q.refused e s)
    (hoverflow : ∀ o, Q.overflow o s)
    (hok : ∀ payout debit, eligible = (kind == .insurance) →
      claimAmounts p st kind = .ok (payout, debit) → Q.ok (payout, debit) s) :
    Holds (claimDue sid kind eligible p st) s Q := by
  cases kind with
  | reward =>
    simp only [claimDue, holds_bind, holds_ite, holds_throw, holds_checked, holds_pure]
    split
    · exact hrefused _
    · rename_i heligible
      split
      · rename_i reward hreward
        exact hok _ _ (show eligible = false by simpa using heligible)
          (by simp [claimAmounts, hreward])
      · exact hoverflow _
  | insurance =>
    simp only [claimDue, holds_bind, holds_ite, holds_throw, holds_checked, holds_pure]
    split
    · exact hrefused _
    · rename_i heligible
      -- the four checked stages, in the order `claimAmounts` runs them
      split
      · rename_i insurance hinsurance
        split
        · rename_i payout hpayout
          split
          · rename_i reward hreward
            split
            · rename_i debit hdebit
              exact hok _ _ (show eligible = true by simpa using heligible)
                (by simp [claimAmounts, hinsurance, hpayout, hreward, hdebit])
            · exact hoverflow _
          · exact hoverflow _
        · exact hoverflow _
      · exact hoverflow _

/-- Persisting a claim on a stake and a pool that exist writes both, with the pool's free
reserve recomputed over its stakes with the settled one in place; only that sum can
overflow, and then nothing is written. -/
theorem holds_persistClaim {st : Stake} {p : Pool} {Q : Post Pool}
    (hs : s.tables.findStake st.id ≠ none) (hp : s.tables.findPool p.id ≠ none) :
    Holds (persistClaim st p) s Q ↔
      match freeReserve p ((s.tables.stakesOf p.id).map
          fun x => if x.id == st.id then st else x) with
      | .ok free => Q.ok { p with tempReserve := free }
          { s with tables := (s.tables.settleClaim st { p with tempReserve := free }).2 }
      | .error o => Q.overflow o s := by
  obtain ⟨prev, hprev⟩ := Option.ne_none_iff_exists'.mp hs
  obtain ⟨q, hq⟩ := Option.ne_none_iff_exists'.mp hp
  simp only [persistClaim, MemoryTables.stakesOf, holds_bind, holds_poolStakes, holds_checked]
  cases freeReserve p _ with
  | error o => rfl
  | ok free => simp only [holds_settleClaim, hprev, hq, holds_pure]

/-- A claim ends in a step, and a claim that succeeds has passed every check, debited the
reserve, recomputed the free reserve and written the settled stake and its pool. -/
def Post.claimSettles (limits : CallLimits) (sid : Nat) (kind : ClaimKind) : Post Payout :=
  ⟨fun _ s' => ∃ st p payout debit u reserve free,
      ClaimChecks s.tables sid kind st p payout debit u ∧ p.reserve.sub debit = .ok reserve ∧
      freeReserve { p with reserve }
        ((s.tables.stakesOf p.id).map fun x => if x.id == sid then st.paid kind else x) =
        .ok free ∧
      (s.tables.settleClaim (st.paid kind) { p with reserve, tempReserve := free }).2.Logged
        s'.tables ∧
      s'.transfers = s.transfers ++ [claimRequest limits p u payout kind sid],
    fun e => OpStep (.claim limits sid kind) s (.ok (.error e)),
    fun o => OpStep (.claim limits sid kind) s (.error o)⟩

/-- What a claim may end in: as `Post.claimSettles` says, with every refusal leaving the tables
and the transfers as they were. -/
def Post.claimExits (limits : CallLimits) (sid : Nat) (kind : ClaimKind) : Post Payout :=
  { Post.claimSettles s limits sid kind with
    refused := fun _ s' => s'.tables = s.tables ∧ s'.transfers = s.transfers }

theorem claim_exits (limits : CallLimits) (sid : Nat) (kind : ClaimKind) :
    Holds (claim limits sid kind) s (.claimExits s limits sid kind) := by
  simp only [claim, holds_bind, holds_ledgerStake]
  -- both reads of the stake find the same record
  cases hst : s.tables.findStake sid with
  | none => exact ⟨rfl, rfl⟩
  | some st =>
  simp only [holds_ledgerPool]
  cases hp : s.tables.findPool st.poolId with
  | none => exact ⟨rfl, rfl⟩
  | some p =>
  simp only [holds_ite, holds_throw, holds_bind, holds_checked]
  cases hunsettled : st.isSettled
  case true => exact ⟨rfl, rfl⟩
  cases hclosed : st.isActive
  case true => exact ⟨rfl, rfl⟩
  cases heligible : isInsuranceEligible p st with
  | error o => exact OpStep.quiet rfl rfl
  | ok eligible =>
  simp only [Bool.false_eq_true, if_false]
  apply holds_claimDue
  · exact fun _ => ⟨rfl, rfl⟩
  · exact fun _ => OpStep.quiet rfl rfl
  intro payout debit hkind hamounts
  dsimp only
  by_cases hcover : p.reserve < payout
  · -- a reserve short of the payout is reported and nothing is sent
    rw [if_pos hcover]
    split
    · simp only [holds_logAt, holds_publish]
      exact ⟨rfl, rfl⟩
    · exact OpStep.quiet rfl rfl
  rw [if_neg hcover, holds_ledgerUser]
  cases hu : s.tables.findUser st.userId with
  | none => exact ⟨rfl, rfl⟩
  | some u =>
  have hchecks : ClaimChecks s.tables sid kind st p payout debit u :=
    ⟨hst, hp, hunsettled, hclosed, hkind ▸ heligible, hamounts, hcover, hu⟩
  dsimp only
  rw [holds_transferOut]
  dsimp only
  cases hsend : (s.sendNext
      ⟨p.tokenMaster, u.walletAddress, payout, limits.decimals, claimComment kind sid⟩).1 with
  | none =>
    refine ⟨rfl, RunState.sendNext_transfers_failed ?_⟩
    intro h hok
    rw [hsend] at hok
    cases hok
  | some answer =>
  cases answer with
  | error e =>
    refine ⟨rfl, RunState.sendNext_transfers_failed ?_⟩
    intro h hok
    rw [hsend] at hok
    cases hok
  | ok txHash =>
  -- the transfer went out; from here on only an overflow can stop the claim
  have hsent := RunState.sendNext_transfers_ok hsend
  cases hreserve : p.reserve.sub debit with
  | error o => exact OpStep.claimSent hchecks rfl hsent
  | ok reserve =>
  dsimp only
  rw [holds_tryCatch]
  refine (holds_persistClaim _ ?_ ?_).mpr ?_
  · rw [Stake.paid_id, RunState.sendNext_tables, s.tables.findStake_self hst]
    exact Option.some_ne_none st
  · rw [RunState.sendNext_tables, s.tables.findPool_self hp]
    exact Option.some_ne_none p
  cases hfree : freeReserve { p with reserve } _ with
  | error o => exact OpStep.claimSent hchecks rfl hsent
  | ok free =>
  simp only [Stake.paid_id, s.tables.findStake_id hst, RunState.sendNext_tables] at hfree
  simp only [holds_logAt, holds_recordOperation, holds_pure]
  exact ⟨st, p, payout, debit, u, reserve, free, hchecks, hreserve, hfree,
    MemoryTables.logged_appendOperation _ _ _ _ _, hsent⟩

theorem claim_settles (limits : CallLimits) (sid : Nat) (kind : ClaimKind) :
    Holds (claim limits sid kind) s (.claimSettles s limits sid kind) :=
  (claim_exits s limits sid kind).mono (fun _ _ h => h) (fun _ _ h => OpStep.quiet h.1 h.2)
    (fun _ _ h => h)

theorem claim_step (limits : CallLimits) (sid : Nat) (kind : ClaimKind) :
    Holds (claim limits sid kind) s (.step (.claim limits sid kind) s) := by
  refine (claim_settles s limits sid kind).mono ?_ (fun _ _ h => h) (fun _ _ h => h)
  rintro _ s' ⟨st, p, payout, debit, u, reserve, free, hchecks, hreserve, hfree, hl, hsent⟩
  exact OpStep.claimSettled hchecks hreserve hfree hl hsent

/-- A pool none of whose stakes the withdrawal counts as active has only inactive stakes. -/
theorem stakesOf_inactive {t : MemoryTables} {pid : Nat}
    (h : ¬ ((t.stakes.filter (·.poolId == pid)).filter (·.isActive)).length > 0) :
    ∀ st ∈ t.stakesOf pid, st.isActive = false := by
  intro st hst
  have hlen : ((t.stakesOf pid).filter (·.isActive)).length = 0 := by
    unfold MemoryTables.stakesOf
    omega
  have hempty := List.filter_eq_nil_iff.mp (List.eq_nil_of_length_eq_zero hlen)
  simpa using hempty st hst

/-! ## Every exit of a withdrawal -/

open Decimal

/-- The liabilities of a pool are never below zero: their sum is floored at zero. -/
theorem outstandingLiability_nonneg {p : Pool} {stakes : List Stake} {liabilities : Decimal}
    (h : outstandingLiability p stakes = .ok liabilities) : 0 ≤ liabilities.value := by
  obtain ⟨owed, -, h⟩ := bind_eq_ok_iff.mp h
  obtain ⟨total, -, h⟩ := bind_eq_ok_iff.mp h
  cases h
  unfold Decimal.max
  split
  · rw [value_zero]
  · rename_i hlt
    simpa using le_iff_value_le.mp (not_lt_iff_le.mp hlt)

/-- The checks a withdrawal from pool `pid` by `requester` makes before it reckons the
liabilities, passed with the pool `p`. -/
structure WithdrawEntry (t : MemoryTables) (pid requester : Nat) (p : Pool) : Prop where
  pool : t.findPool pid = some p
  owner : p.ownerId = requester
  positive : Decimal.zero < p.reserve
  inactive : p.isActive = false
  paid : p.isCommissionPaid = true
  noneActive : ∀ st ∈ t.stakesOf pid, st.isActive = false

section Checks

variable {t : MemoryTables} {pid requester : Nat} {p q : Pool} {owed owed' amount : Decimal}
  {u : User}

theorem WithdrawEntry.pool_eq (h : WithdrawEntry t pid requester p) (hq : t.findPool pid = some q) :
    q = p :=
  Option.some.inj (hq.symm.trans h.pool)

namespace WithdrawChecks

theorem entry (h : WithdrawChecks t pid requester p owed amount u) :
    WithdrawEntry t pid requester p :=
  ⟨h.pool, h.owner, not_le_iff_lt.mp h.positive, h.inactive, h.paid, h.noneActive⟩

/-- The pool and the liabilities the checks pass with are those the tables give. -/
theorem same (h : WithdrawChecks t pid requester p owed amount u) (hq : t.findPool pid = some q)
    (howed : outstandingLiability q (t.stakesOf pid) = .ok owed') : q = p ∧ owed' = owed := by
  obtain rfl : q = p := h.entry.pool_eq hq
  exact ⟨rfl, Except.ok.inj (howed.symm.trans h.owed)⟩

/-- Liabilities that pass the checks are not above the reserve. -/
theorem not_short (h : WithdrawChecks t pid requester p owed amount u)
    (hq : WithdrawEntry t pid requester q)
    (howed : outstandingLiability q (t.stakesOf pid) = .ok owed') : ¬ q.reserve < owed' := by
  obtain ⟨rfl, rfl⟩ := h.same hq.pool howed
  exact h.covered

end WithdrawChecks

end Checks

/-- A refusal for liabilities above the reserve names them, the reserve and the shortfall. -/
def ShortfallReported (t : MemoryTables) (pid requester : Nat) (e : LedgerError) : Prop :=
  ∀ p owed, WithdrawEntry t pid requester p → outstandingLiability p (t.stakesOf pid) = .ok owed →
    p.reserve < owed → ∃ shortfall, owed.sub p.reserve = .ok shortfall ∧
      e = .insufficientReserve owed p.reserve shortfall

/-- How a withdrawal from `s` may end. It succeeds once every check passed and the executor
accepted the surplus, and then empties the pool. A refusal comes either before anything is
sent, with the state as it was and no check passed, or from the executor, with the transfer
not kept. An overflow comes only from reckoning the liabilities. -/
def Post.withdrawExits (s : RunState) (limits : CallLimits) (pid requester : Nat) : Post Payout :=
  ⟨fun _ s' => ∃ p owed amount u h, WithdrawChecks s.tables pid requester p owed amount u ∧
      (s.sendNext (withdrawRequest limits p u amount pid)).1 = some (.ok h) ∧
      s'.sends = s.sends + 1 ∧ s'.transfers = s.transfers ++ [withdrawRequest limits p u amount pid] ∧
      (s.tables.updatePool (p.emptied owed)).2.Logged s'.tables,
    fun e s' => (s' = s ∧
        (∀ p owed amount u, ¬ WithdrawChecks s.tables pid requester p owed amount u) ∧
        ShortfallReported s.tables pid requester e) ∨
      ∃ p owed amount u, WithdrawChecks s.tables pid requester p owed amount u ∧
        (∀ h, (s.sendNext (withdrawRequest limits p u amount pid)).1 ≠ some (.ok h)) ∧
        s' = (s.sendNext (withdrawRequest limits p u amount pid)).2,
    fun o s' => s' = s ∧ ∃ p, WithdrawEntry s.tables pid requester p ∧
      outstandingLiability p (s.tables.stakesOf pid) = .error o⟩

section Exits

variable {s : RunState} {limits : CallLimits} {pid requester : Nat}

/-- A refusal at an entry check. -/
theorem withdrawExits_refused_entry {e : LedgerError}
    (hno : ∀ p, ¬ WithdrawEntry s.tables pid requester p) :
    (Post.withdrawExits s limits pid requester).refused e s :=
  .inl ⟨rfl, fun p _ _ _ h => hno p h.entry, fun p _ h => absurd h (hno p)⟩

/-- A refusal past the entry checks, with liabilities not above the reserve, from a later check
that fails. -/
theorem withdrawExits_refused_covered {e : LedgerError} {p : Pool} {owed : Decimal}
    (hentry : WithdrawEntry s.tables pid requester p)
    (howed : outstandingLiability p (s.tables.stakesOf pid) = .ok owed)
    (hcovered : ¬ p.reserve < owed)
    (hno : ∀ owed amount u, ¬ WithdrawChecks s.tables pid requester p owed amount u) :
    (Post.withdrawExits s limits pid requester).refused e s := by
  refine .inl ⟨rfl, fun q owed' amount u h => ?_, fun q owed' hq howed' hlt => ?_⟩
  · obtain rfl := hentry.pool_eq h.pool
    exact hno owed' amount u h
  · obtain rfl := hentry.pool_eq hq.pool
    obtain rfl : owed' = owed := Except.ok.inj (howed'.symm.trans howed)
    exact absurd hlt hcovered

end Exits

/-- A withdrawal ends at one of the exits `Post.withdrawExits` lists; the cases follow its
checks one by one. -/
theorem withdrawReserve_exits (s : RunState) (limits : CallLimits) (pid requester : Nat) :
    Holds (withdrawReserve limits pid requester) s (.withdrawExits s limits pid requester) := by
  simp only [withdrawReserve, holds_bind, holds_ledgerPool]
  cases hp : s.tables.findPool pid with
  | none => exact withdrawExits_refused_entry fun q h => by rw [h.pool] at hp; cases hp
  | some p =>
  simp only [holds_ite, holds_throw, holds_bind, holds_poolStakes, holds_checked]
  -- an entry check that fails refuses before anything is reckoned
  have hrefuse : ∀ {e : LedgerError}, (WithdrawEntry s.tables pid requester p → False) →
      (Post.withdrawExits s limits pid requester).refused e s := by
    intro e hbad
    refine withdrawExits_refused_entry fun q h => ?_
    obtain rfl := h.pool_eq hp
    exact hbad h
  by_cases howner : (p.ownerId != requester) = true
  · rw [if_pos howner]
    exact hrefuse fun h => by simp [h.owner] at howner
  rw [if_neg howner]
  by_cases hpositive : p.reserve ≤ Decimal.zero
  · rw [if_pos hpositive]
    exact hrefuse fun h => not_le_iff_lt.mpr h.positive hpositive
  rw [if_neg hpositive]
  by_cases hactivePool : p.isActive = true
  · rw [if_pos hactivePool]
    exact hrefuse fun h => by simp [h.inactive] at hactivePool
  rw [if_neg hactivePool]
  by_cases hunpaid : (!p.isCommissionPaid) = true
  · rw [if_pos hunpaid]
    exact hrefuse fun h => by simp [h.paid] at hunpaid
  rw [if_neg hunpaid]
  by_cases hactive : ((s.tables.stakes.filter (·.poolId == pid)).filter (·.isActive)).length > 0
  · rw [if_pos hactive]
    refine hrefuse fun h => ?_
    obtain ⟨st, hst⟩ := List.exists_mem_of_length_pos hactive
    rw [List.mem_filter] at hst
    have hoff := h.noneActive st hst.1
    simp [hoff] at hst
  rw [if_neg hactive]
  have hentry : WithdrawEntry s.tables pid requester p :=
    ⟨hp, by simpa using howner, not_le_iff_lt.mp hpositive, by simpa using hactivePool,
      by simpa using hunpaid, stakesOf_inactive hactive⟩
  have hreserve : 0 ≤ p.reserve.value := by
    have hpos := lt_iff_value_lt.mp hentry.positive
    rw [value_zero] at hpos
    exact hpos.le
  cases howed : outstandingLiability p (s.tables.stakes.filter (·.poolId == pid)) with
  | error o => exact ⟨rfl, p, hentry, howed⟩
  | ok owed =>
  have hnonneg := outstandingLiability_nonneg howed
  dsimp only
  by_cases hshort : p.reserve < owed
  · -- liabilities past the reserve are reported with the shortfall, which is always computed
    rw [if_pos hshort]
    obtain ⟨shortfall, hsf⟩ := Option.isSome_iff_exists.1 (sub?_isSome hnonneg hreserve)
    have hshortfall : owed.sub p.reserve = .ok shortfall := orOverflow_eq_ok.mpr hsf
    rw [hshortfall]
    simp only [holds_logAt]
    refine .inl ⟨rfl, fun q owed' amount u h => ?_, fun q owed' hq howed' _ => ?_⟩
    · exact h.not_short hentry howed hshort
    · obtain rfl := hentry.pool_eq hq.pool
      obtain rfl : owed' = owed := Except.ok.inj (howed'.symm.trans howed)
      exact ⟨shortfall, hshortfall, rfl⟩
  rw [if_neg hshort]
  obtain ⟨amount, hamount⟩ := Option.isSome_iff_exists.1 (sub?_isSome hreserve hnonneg)
  have hsurplus : p.reserve.sub owed = .ok amount := orOverflow_eq_ok.mpr hamount
  rw [hsurplus]
  dsimp only
  cases hz : amount.isZero
  case true =>
    refine withdrawExits_refused_covered hentry howed hshort fun owed' amount' u h => ?_
    obtain ⟨-, rfl⟩ := h.same hp howed
    obtain rfl : amount = amount' := Except.ok.inj (hsurplus.symm.trans h.surplus)
    simp [h.nonzero] at hz
  simp only [Bool.false_eq_true, if_false, holds_ledgerUser]
  cases hu : s.tables.findUser p.ownerId with
  | none =>
    refine withdrawExits_refused_covered hentry howed hshort fun owed' amount' u h => ?_
    simp [h.user] at hu
  | some u =>
  have hchecks : WithdrawChecks s.tables pid requester p owed amount u :=
    ⟨hp, by simpa using howner, hpositive, by simpa using hactivePool, by simpa using hunpaid,
      hentry.noneActive, howed, hshort, hsurplus, hz, hu⟩
  dsimp only
  rw [holds_transferOut]
  dsimp only
  cases hsend : (s.sendNext ⟨p.tokenMaster, u.walletAddress, amount, limits.decimals,
      "Reserve withdrawal from pool #" ++ toString pid⟩).1 with
  | none => exact .inr ⟨p, owed, amount, u, hchecks,
    (fun h hok => by cases hsend.symm.trans hok), rfl⟩
  | some answer =>
  cases answer with
  | error e =>
    exact .inr ⟨p, owed, amount, u, hchecks,
    (fun h hok => by cases hsend.symm.trans hok), rfl⟩
  | ok txHash =>
  -- the transfer went out, and the pool it was checked against is there to be written
  dsimp only
  rw [holds_tryCatch, holds_updatePool]
  simp only [RunState.sendNext_tables, s.tables.findPool_self hp, holds_logAt,
    holds_recordOperation, holds_pure]
  exact ⟨p, owed, amount, u, txHash, hchecks, hsend, rfl, RunState.sendNext_transfers_ok hsend,
    MemoryTables.logged_appendOperation _ _ _ _ _⟩

theorem withdrawReserve_step (limits : CallLimits) (pid requester : Nat) :
    Holds (withdrawReserve limits pid requester) s
      (.step (.withdrawReserve limits pid requester) s) := by
  refine (withdrawReserve_exits s limits pid requester).mono ?_ ?_ ?_
  · rintro _ s' ⟨p, owed, amount, u, txHash, hchecks, -, -, hsent, hl⟩
    exact OpStep.withdraw hchecks hl hsent
  · rintro e s' (⟨rfl, -, -⟩ | ⟨p, owed, amount, u, -, hfailed, rfl⟩)
    · exact OpStep.quiet rfl rfl
    · exact OpStep.quiet (RunState.sendNext_tables _) (RunState.sendNext_transfers_failed hfailed)
  · rintro o s' ⟨rfl, -⟩
    exact OpStep.quiet rfl rfl

end PoolTreasury
