import PoolTreasury.Proofs.Ledger.Capacity
import PoolTreasury.Proofs.Pool.FreeReserve
import PoolTreasury.Proofs.Settlement.SettledOnce

/-! # What a claim debits

A claim pays its stake and takes from the pool's reserve what the stake was owed. The amounts
are worked out twice in the code: once by the claim, as the reward, or the reward and the
insurance; once by `stakeLiability`, which the free reserve sums. The two agree: the debit is
the stake's liability, as a number (`debit_eq_stakeLiability`), for the insurance claim adds
the same two terms in the other order.

After the debit the claim writes the pool with the reserve less the debit and the free reserve
recomputed over the stakes it still owes, which are the ones it owed before without the one
paid (`claim_debits_liability`). In exact arithmetic that leaves the free reserve where it
was. Decimal arithmetic keeps 28 significant digits, so a debit from a large reserve can be
rounded away in part, and the free reserve then moves (`claim_moves_free_reserve`).
-/

namespace PoolTreasury

namespace Decimal

/-! ## Adding in either order -/

/-- A zero mantissa is brought into range without a sign. -/
theorem fit?_zero (neg : Bool) (s : Nat) : fit? neg 0 s = fit? false 0 s := by
  unfold fit?
  cases h : shrinkDigits 0 s (s - maxScale) with
  | none => rfl
  | some ms =>
    obtain ⟨m, s'⟩ := ms
    obtain ⟨k, -, -, hm, -, -, -⟩ := shrinkDigits_spec h
    have hzero : m = 0 := by simp [hm, roundDiv]
    simp [hzero, ofPartsPositiveZero?]

/-- Decimal addition gives the same value in either order: the two mantissas are added or
subtracted at the same scale, and only a zero may come out with another scale or sign. -/
theorem add?_comm_value (a b : Decimal) : (a.add? b).map value = (b.add? a).map value := by
  unfold add? combine
  by_cases ha : a.mantissa = 0
  · by_cases hb : b.mantissa = 0
    · simp [ha, hb, value_of_mantissa_zero ha, value_of_mantissa_zero hb]
    · simp [ha, hb]
  by_cases hb : b.mantissa = 0
  · simp [ha, hb]
  simp only [ha, hb, if_false, Bool.false_eq_true, Nat.max_comm b.scale a.scale]
  generalize a.mantissa * 10 ^ (Nat.max a.scale b.scale - a.scale) = ma
  generalize b.mantissa * 10 ^ (Nat.max a.scale b.scale - b.scale) = mb
  cases a.negative <;> cases b.negative <;> simp only [Nat.add_comm, beq_self_eq_true, if_true]
  -- opposite signs: the smaller mantissa is taken from the larger, and equal ones leave zero
  all_goals
    by_cases h1 : mb ≤ ma <;> by_cases h2 : ma ≤ mb <;>
      simp only [h1, h2, if_true, if_false, Bool.not_false, Bool.not_true] <;>
      first
        | omega
        | (have hab : ma = mb := by omega
           subst hab
           simp [fit?_zero])
        | rfl

theorem add_comm_value {a b c : Decimal} (h : a.add b = .ok c) :
    ∃ d, b.add a = .ok d ∧ d.value = c.value := by
  have hmap := add?_comm_value a b
  rw [orOverflow_eq_ok.mp h] at hmap
  cases hd : b.add? a with
  | none =>
    rw [hd] at hmap
    cases hmap
  | some d =>
    rw [hd] at hmap
    exact ⟨d, orOverflow_eq_ok.mpr hd, (Option.some.inj hmap).symm⟩

end Decimal

open Decimal MemoryTables

/-! ## The debit is the liability -/

/-- What a claim debits is what its stake owes: the reward alone on a reward claim, on an
insurance claim the reward and the insurance, which `stakeLiability` adds the other way
round. -/
theorem debit_eq_stakeLiability {p : Pool} {st : Stake} {kind : ClaimKind}
    {payout debit : Decimal} (heligible : isInsuranceEligible p st = .ok (kind == .insurance))
    (h : claimAmounts p st kind = .ok (payout, debit)) :
    ∃ liability, stakeLiability p st = .ok liability ∧ liability.value = debit.value := by
  cases kind with
  | reward =>
    obtain ⟨reward, hreward, hpair⟩ := bind_eq_ok_iff.mp h
    cases hpair
    refine ⟨_, ?_, rfl⟩
    simp [stakeLiability, hreward, heligible]
  | insurance =>
    obtain ⟨insurance, hinsurance, h⟩ := bind_eq_ok_iff.mp h
    obtain ⟨_, -, h⟩ := bind_eq_ok_iff.mp h
    obtain ⟨reward, hreward, h⟩ := bind_eq_ok_iff.mp h
    obtain ⟨_, hdebit, hpair⟩ := bind_eq_ok_iff.mp h
    cases hpair
    obtain ⟨liability, hliability, hvalue⟩ := add_comm_value hdebit
    refine ⟨liability, ?_, hvalue⟩
    simp [stakeLiability, hreward, heligible, hinsurance, hliability]

section Settled

variable {t : MemoryTables} {sid : Nat} {kind : ClaimKind} {st : Stake} {p : Pool}
  {payout debit : Decimal} {u : User}

/-- The stake a claim pays is one its pool owes: it is closed and not yet settled. -/
theorem ClaimChecks.owed (hc : ClaimChecks t sid kind st p payout debit u) : st ∈ t.owedOf p.id := by
  unfold owedOf
  rw [List.mem_filter]
  refine ⟨List.mem_of_find?_eq_some hc.stake, ?_⟩
  have hunsettled := hc.unsettled
  simp only [Stake.isSettled, Bool.or_eq_false_iff] at hunsettled
  simp [owedIn, t.findPool_id hc.pool, hc.closed, hunsettled]

/-- A settled stake written over its record leaves every pool owing what it owed, but that
stake. -/
theorem owedOf_settleClaim (hs : t.Sorted) {x prev : Stake} {q r : Pool}
    (hx : t.findStake x.id = some prev) (hq : t.findPool q.id = some r) {k : Nat}
    (hpaid : owedIn k x = false) :
    (t.settleClaim x q).2.owedOf k = t.stakes.filter (fun y => owedIn k y && y.id != x.id) := by
  unfold owedOf
  rw [stakes_settleClaim hx hq, filter_upsertBy _ _ hs hpaid]

end Settled

/-! ## A successful claim -/

/-- From every reachable state, a claim that succeeds on a stake of pool `p` debits the reserve
by the number the stake was owed, as `stakeLiability` reckons it before the claim. The pool is
written with the reserve less the debit, and its free reserve recomputed at that reserve over
its stakes as the store then holds them. It then owes exactly the stakes it owed before but
the paid one. -/
theorem claim_debits_liability {s : RunState} (hs : s.Reachable) (limits : CallLimits) (sid : Nat)
    (kind : ClaimKind) :
    let r := (LedgerOp.claim limits sid kind).exec s
    r.1 = .ok (.ok ()) → ∃ st p debit liability reserve free,
      s.tables.findStake sid = some st ∧ s.tables.findPool st.poolId = some p ∧
      st ∈ s.tables.owedOf p.id ∧
      stakeLiability p st = .ok liability ∧ debit.value = liability.value ∧
      p.reserve.sub debit = .ok reserve ∧
      r.2.tables.findPool p.id = some { p with reserve, tempReserve := free } ∧
      r.2.tables.owedOf p.id = (s.tables.owedOf p.id).filter (·.id != sid) ∧
      freeReserve { p with reserve } (r.2.tables.stakesOf p.id) = .ok free := by
  intro r hr
  -- the answer is dropped; what is kept of a success is the checks and the writes
  have hspec : Holds (LedgerOp.claim limits sid kind).action s
      ⟨fun _ s' => ∃ a, (Post.claimSettles s limits sid kind).ok a s',
        (Post.claimSettles s limits sid kind).refused,
        (Post.claimSettles s limits sid kind).overflow⟩ :=
    holds_discard.mpr ((claim_settles s limits sid kind).mono
      (fun a _ h => ⟨a, h⟩) (fun _ _ h => h) (fun _ _ h => h))
  obtain ⟨-, st, p, payout, debit, u, reserve, free, hc, hreserve, hfree, hl, -⟩ :=
    LedgerOp.ok_of_holds hspec hr
  have hl : (s.tables.settleClaim (st.paid kind) { p with reserve, tempReserve := free }).2.Logged
      r.2.tables := hl
  obtain ⟨liability, hliability, hvalue⟩ := debit_eq_stakeLiability hc.eligible hc.amounts
  have hsid : st.id = sid := s.tables.findStake_id hc.stake
  have hq : s.tables.findPool ({ p with reserve, tempReserve := free } : Pool).id = some p :=
    s.tables.findPool_self hc.pool
  -- the pool owes what it owed, but the stake just paid
  have howed : r.2.tables.owedOf p.id = (s.tables.owedOf p.id).filter (·.id != sid) := by
    rw [owedOf_of_stakes (stakes_of_logged _ hl),
      owedOf_settleClaim hs.sorted hc.findStake_paid hq (owedIn_paid st kind _), Stake.paid_id,
      hsid, owedOf, List.filter_filter]
    exact List.filter_congr fun y _ => Bool.and_comm _ _
  refine ⟨st, p, debit, liability, reserve, free, hc.stake, hc.pool, hc.owed, hliability,
    hvalue.symm, hreserve, ?_, howed, ?_⟩
  · rw [findPool_of_logged _ hl, findPool_settleClaim _ hc.findStake_paid hq, if_pos rfl]
  · -- the claim reckoned over the stakes with the paid one in place, which owe the same
    rw [← hfree]
    refine freeReserve_congr rfl rfl ?_
    rw [owedStakes_settled _ _ sid _ (owedIn_paid st kind _), owedStakes_stakesOf, howed, owedOf,
      List.filter_filter]
    exact List.filter_congr fun y _ => Bool.and_comm _ _

/-! ## A debit rounded away -/

theorem sixTenths_mantissa_lt : 6 < mantissaBound := by
  decide

/-- Six tenths. -/
def sixTenths : Decimal := ⟨6, 1, false, sixTenths_mantissa_lt, capacityRatio.scale_le⟩

/-- A pool of `10^26` paying one percent a day for a day, two stakes of 0.6 in it, and the day
passed: each stake is owed a reward of 0.006. -/
def debitRun : List LedgerOp :=
  [.registerUser "0:owner", .registerUser "0:staker",
    .createPool ⟨1, Decimal.ofNat (10 ^ 26), "0:master", "0:deposit", Decimal.one, 1, Decimal.zero⟩,
    .payCommission 3 (Decimal.ofNat 5) (Decimal.ofNat 5), .setActive 3 true,
    .createStake 2 3 sixTenths Decimal.one, .createStake 2 3 sixTenths Decimal.one,
    .tick 1000 ⟨0, 0⟩, .tick 1000 ⟨86400, 0⟩]

/-- The state that run reaches, with collaborators that price every token at one and accept
every transfer. -/
def debitState : RunState :=
  (RunState.start .accepting ⟨0, 0⟩).runOps debitRun

/-- `10^26 - 0.01`, which is `10^26 - 0.012` rounded to 28 digits. -/
def freeBefore : Decimal := ⟨9999999999999999999999999999, 2, false, by decide, by decide⟩

/-- `10^26 - 0.02`. -/
def freeAfter : Decimal := ⟨9999999999999999999999999998, 2, false, by decide, by decide⟩

/-- Claiming the first reward: the reserve less the debit, `10^26 - 0.006`, keeps two places
only, and the free reserve recomputed after it is one hundredth below the one before. -/
theorem claim_moves_free_reserve :
    let s := debitState
    let r := (LedgerOp.claim ⟨1000, 9⟩ 7 .reward).exec s
    r.1 = .ok (.ok ()) ∧
      (s.tables.findPool 3).map (fun p => freeReserve p (s.tables.stakesOf 3)) =
        some (.ok freeBefore) ∧
      (s.tables.findPool 3).map (·.tempReserve) = some freeBefore ∧
      (r.2.tables.findPool 3).map (fun p => freeReserve p (r.2.tables.stakesOf 3)) =
        some (.ok freeAfter) ∧
      (r.2.tables.findPool 3).map (·.tempReserve) = some freeAfter ∧
      freeAfter < freeBefore := by
  refine ⟨?_, ?_, ?_, ?_, ?_, ?_⟩ <;> decide +kernel

theorem claim_debits_liability_in_debitRun :
    let r := (LedgerOp.claim ⟨1000, 9⟩ 7 .reward).exec debitState
    r.1 = .ok (.ok ()) → ∃ st p debit liability reserve free,
      debitState.tables.findStake 7 = some st ∧ debitState.tables.findPool st.poolId = some p ∧
      st ∈ debitState.tables.owedOf p.id ∧
      stakeLiability p st = .ok liability ∧ debit.value = liability.value ∧
      p.reserve.sub debit = .ok reserve ∧
      r.2.tables.findPool p.id = some { p with reserve, tempReserve := free } ∧
      r.2.tables.owedOf p.id = (debitState.tables.owedOf p.id).filter (·.id != 7) ∧
      freeReserve { p with reserve } (r.2.tables.stakesOf p.id) = .ok free :=
  claim_debits_liability (⟨.accepting, ⟨0, 0⟩, debitRun, rfl⟩ : debitState.Reachable) ⟨1000, 9⟩ 7
    .reward

end PoolTreasury
