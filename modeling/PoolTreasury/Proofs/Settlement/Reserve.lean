import PoolTreasury.Proofs.Decimal.Monotone
import PoolTreasury.Proofs.Settlement.SettledOnce
import PoolTreasury.Proofs.Accrual.Bounds

/-! # Reserves are never overdrawn

A claim checks its whole payout, principal included, against the reserve, but debits the
reserve only by what is owed above the principal: the reward, and the insurance when it is
paid. Both amounts are rounded to the digits a decimal holds, each on its own, so the debit
can round to a few units of the last place more than the payout less the principal; what
holds is that the debit lies between zero and the payout, and so below the reserve. A
withdrawal takes the part of the reserve above the liabilities, which are floored at zero.

So no reserve ever goes below zero: each step keeps the reserve of every pool it does not
debit, gives a new pool its deposit of at least one, debits a covered claim, or empties the
pool it withdraws from.
-/

namespace PoolTreasury
namespace Decimal

/-- A decimal without the sign is not below zero. -/
theorem value_nonneg_of_not_negative {d : Decimal} (h : d.negative = false) : 0 ≤ d.value :=
  (value_nonneg_iff d).mpr (.inl h)

/-- Rounding up keeps a value that is not negative so. -/
theorem ceil_nonneg {d c : Decimal} (hd : 0 ≤ d.value) (h : d.ceil = .ok c) : 0 ≤ c.value := by
  have htrunc : 0 ≤ d.trunc.value := by
    refine (value_nonneg_iff _).mpr ?_
    rcases (value_nonneg_iff d).mp hd with hneg | hzero
    · exact .inl hneg
    · exact .inr (by simp [trunc, hzero])
  unfold ceil at h
  split at h
  · cases h
    exact hd
  · split at h
    · exact htrunc.trans (add_ge htrunc (by simp) h).1
    · cases h
      exact htrunc

end Decimal

open Decimal

/-- The insurance on a principal that is not negative is not negative, whatever the reserve:
each way of computing it multiplies and divides amounts that are not negative and rounds up. -/
theorem insuranceAmount_nonneg {reserve amount i : Decimal} (ha : 0 ≤ amount.value)
    (h : insuranceAmount reserve amount = .ok i) : 0 ≤ i.value := by
  have hshare : 0 ≤ insuranceShare.value := value_nonneg_of_not_negative rfl
  -- the amount without the reserve's backing: the principal times nine tenths times ten
  have hreduced :
      ∀ r, (amount.mul insuranceShare >>= fun a => a.mul ten) = .ok r → 0 ≤ r.value := by
    intro r hr
    obtain ⟨a, ha', hr'⟩ := bind_eq_ok_iff.mp hr
    exact mul_nonneg (mul_nonneg ha hshare ha') (value_nonneg_of_not_negative rfl) hr'
  unfold insuranceAmount at h
  split at h
  · obtain ⟨r, hr, hc⟩ := bind_eq_ok_iff.mp h
    exact ceil_nonneg (hreduced r hr) hc
  · -- a positive reserve backs the principal in proportion, when the product and quotient fit
    rename_i hpos
    have hres : 0 ≤ reserve.value :=
      (lt_iff_value_lt.mp (not_le_iff_lt.mp hpos)).le.trans' (by simp)
    obtain ⟨share, hs, h⟩ := bind_eq_ok_iff.mp h
    dsimp only at h
    split at h
    · simp only [pure_bind] at h
      obtain ⟨r, hr, hc⟩ := bind_eq_ok_iff.mp h
      exact ceil_nonneg (hreduced r hr) hc
    · rename_i backed hbacked
      obtain ⟨capacity, hcap, h⟩ := bind_eq_ok_iff.mp h
      simp only [pure_bind] at h
      split at h
      · rename_i v hv
        have hsh : 0 ≤ share.value := mul_nonneg hshare hres hs
        have hcapn : 0 ≤ capacity.value := mul_nonneg (value_nonneg_of_not_negative rfl) hres hcap
        exact ceil_nonneg (div?_nonneg (mul?_nonneg hsh ha hbacked) hcapn hv) h
      · obtain ⟨r, hr, hc⟩ := bind_eq_ok_iff.mp h
        exact ceil_nonneg (hreduced r hr) hc

/-- What a claim pays and what it debits, for a stake whose principal is not negative and
whose balance is at least its principal: the debit is not negative and at most the payout.
The reward is the balance less the principal; insurance, when paid, is added to both. -/
theorem claimAmounts_bounds {p : Pool} {st : Stake} {kind : ClaimKind} {payout debit : Decimal}
    (ha : 0 ≤ st.amount.value) (hab : st.amount.value ≤ st.balance.value)
    (h : claimAmounts p st kind = .ok (payout, debit)) :
    0 ≤ debit.value ∧ debit.value ≤ payout.value := by
  cases kind with
  | reward =>
    obtain ⟨reward, hr, h⟩ := bind_eq_ok_iff.mp h
    cases h
    exact sub_bounds ha hab hr
  | insurance =>
    obtain ⟨insurance, hi, h⟩ := bind_eq_ok_iff.mp h
    obtain ⟨payout', hp, h⟩ := bind_eq_ok_iff.mp h
    obtain ⟨reward, hr, h⟩ := bind_eq_ok_iff.mp h
    obtain ⟨debit', hd, h⟩ := bind_eq_ok_iff.mp h
    cases h
    have hins := insuranceAmount_nonneg ha hi
    have hreward := sub_bounds ha hab hr
    exact ⟨(add_rounds hreward.1 hins hd).nonneg,
      add_le_add_of_le hreward.1 hreward.2 hins hd hp⟩

namespace ClaimChecks

variable {t : MemoryTables} {sid : Nat} {kind : ClaimKind} {st : Stake} {p : Pool}
  {payout debit : Decimal} {u : User}

/-- A claim that passes its checks pays no more than the reserve of its pool holds. -/
theorem payout_le (hc : ClaimChecks t sid kind st p payout debit u) :
    payout.value ≤ p.reserve.value :=
  le_iff_value_le.mp (not_lt_iff_le.mp hc.covered)

/-- A claim that passes its checks, on tables whose stakes hold at least their principals,
debits its pool by an amount between zero and its payout. -/
theorem debit_bounds (ha : t.AccrualSound) (hc : ClaimChecks t sid kind st p payout debit u) :
    0 ≤ debit.value ∧ debit.value ≤ payout.value :=
  claimAmounts_bounds (ha.principal hc.stake).le (le_iff_value_le.mp (ha.floor hc.stake))
    hc.amounts

end ClaimChecks

/-- A pool that passes the checks of `createPool` starts with a reserve of at least one. -/
theorem validateNewPool_reserveDeposit {params : NewPool} (h : validateNewPool params = none) :
    1 ≤ params.reserveDeposit.value := by
  unfold validateNewPool at h
  split at h
  · cases h
  rename_i hlow
  simpa using le_iff_value_le.mp (not_lt_iff_le.mp hlow)

namespace MemoryTables

/-- No pool holds the id the next record is given. -/
theorem Fresh.findPool_next {t : MemoryTables} (h : t.Fresh) :
    t.findPool (t.lastId + 1) = none := by
  cases hp : t.findPool (t.lastId + 1) with
  | none => rfl
  | some p => exact absurd (h.pool hp) (by omega)

/-- No pool's reserve is below zero. -/
def NoOverdraw (t : MemoryTables) : Prop :=
  ∀ {k p}, t.findPool k = some p → 0 ≤ p.reserve.value

end MemoryTables

open MemoryTables

/-- How the reserve of pool `k` may stand after operation `op` on tables `t`. -/
inductive ReserveAfter (op : LedgerOp) (t : MemoryTables) (k : Nat) (reserve : Decimal) : Prop
  /-- the pool was there, and its reserve is as it was or higher -/
  | kept {p : Pool} : t.findPool k = some p → p.reserve.value ≤ reserve.value →
      ReserveAfter op t k reserve
  /-- the pool is new, with a reserve of at least one -/
  | opened : t.findPool k = none → 1 ≤ reserve.value → ReserveAfter op t k reserve
  /-- a claim on a stake of the pool took off the reserve a debit between zero and the payout,
  which the reserve covered -/
  | debited {limits : CallLimits} {sid : Nat} {kind : ClaimKind} {st : Stake} {p : Pool}
      {payout debit : Decimal} {u : User} :
      op = .claim limits sid kind → ClaimChecks t sid kind st p payout debit u → st.poolId = k →
      payout.value ≤ p.reserve.value → 0 ≤ debit.value → debit.value ≤ payout.value →
      p.reserve.sub debit = .ok reserve → ReserveAfter op t k reserve
  /-- the owner withdrew what the reserve held above the liabilities, and nothing is left -/
  | emptied {limits : CallLimits} {requester : Nat} {p : Pool} {liabilities amount : Decimal}
      {u : User} :
      op = .withdrawReserve limits k requester →
      WithdrawChecks t k requester p liabilities amount u →
      reserve = Decimal.zero → ReserveAfter op t k reserve

/-- However a reserve stands after a step, it is not below zero if none was before. -/
theorem ReserveAfter.nonneg {op : LedgerOp} {t : MemoryTables} {k : Nat} {reserve : Decimal}
    (hr : ReserveAfter op t k reserve) (h : t.NoOverdraw) : 0 ≤ reserve.value := by
  cases hr with
  | kept hp hle => exact (h hp).trans hle
  | opened _ hone => exact zero_le_one.trans hone
  | debited _ _ _ hcovered hdebit hle hsub =>
    exact (sub_bounds hdebit (hle.trans hcovered) hsub).1
  | emptied _ _ hzero =>
    rw [hzero, value_zero]

/-- The accrual pass writes no reserve: besides stakes and records, it writes a pool's free
reserve only. -/
theorem TickWrite.reserve_of_findPool {now : Instant} {x : Stake} {t t' : MemoryTables}
    (hw : TickWrite now x t t') {k : Nat} {p' : Pool} (hp' : t'.findPool k = some p') :
    ∃ p, t.findPool k = some p ∧ p.reserve = p'.reserve := by
  cases hw with
  | accrue _ _ _ _ _ =>
    rw [findPool_updateStake] at hp'
    exact ⟨p', hp', rfl⟩
  | close _ _ _ _ =>
    rw [findPool_updateStake] at hp'
    exact ⟨p', hp', rfl⟩
  | @refresh p free hp _ =>
    have hq : t.findPool ({ p with tempReserve := free } : Pool).id = some p := t.findPool_self hp
    rcases t.eq_or_findPool_of_write (findPool_updatePool t hq) hp' with ⟨hid, rfl⟩ | hp'
    · exact ⟨p, hid ▸ hq, rfl⟩
    · exact ⟨p', hp', rfl⟩
  | note hl =>
    rw [t.findPool_of_logged hl] at hp'
    exact ⟨p', hp', rfl⟩

theorem TickRun.reserve_of_findPool {now : Instant} {xs : List Stake} {t t' : MemoryTables}
    (hr : TickRun now xs t t') {k : Nat} {p' : Pool} (hp' : t'.findPool k = some p') :
    ∃ p, t.findPool k = some p ∧ p.reserve = p'.reserve := by
  refine hr.invariant
    (P := fun t₁ => ∀ {k p'}, t₁.findPool k = some p' → ∃ p, t.findPool k = some p ∧
      p.reserve = p'.reserve) ?_ (fun hp => ⟨_, hp, rfl⟩) hp'
  intro x t₁ t₂ _ hw h₁ k p₂ hp₂
  obtain ⟨p₁, hp₁, heq₁⟩ := hw.reserve_of_findPool hp₂
  obtain ⟨p, hp, heq⟩ := h₁ hp₁
  exact ⟨p, hp, heq.trans heq₁⟩

/-- How a step leaves each reserve: a new pool has at least one, a claim debits its stake's
pool, a withdrawal empties its pool, and every other reserve is as it was or higher. -/
theorem OpStep.reserveAfter {op : LedgerOp} {s s' : RunState} {r : Outcome}
    (hs : OpStep op s r s') (hf : s.tables.Fresh) (ha : s.tables.AccrualSound)
    (h : s.tables.NoOverdraw) {k : Nat} {p' : Pool} (hp' : s'.tables.findPool k = some p') :
    ReserveAfter op s.tables k p'.reserve := by
  -- a pool found as it was, or with the same reserve
  have hsame : ∀ {q : Pool}, s.tables.findPool k = some q → q.reserve = p'.reserve →
      ReserveAfter op s.tables k p'.reserve :=
    fun hq heq => .kept hq (heq ▸ le_rfl)
  cases hs with
  | quiet ht _ =>
    rw [ht] at hp'
    exact hsame hp' rfl
  | registerUser ht _ =>
    rw [ht, findPool_saveUser] at hp'
    exact hsame hp' rfl
  | createPool hvalid _ hl _ =>
    rw [findPool_of_logged _ hl, findPool_savePool] at hp'
    split at hp'
    · -- the new pool, under an id no pool had
      rename_i hk
      cases hp'
      exact .opened (hk ▸ hf.findPool_next) (validateNewPool_reserveDeposit hvalid)
    · exact hsame hp' rfl
  | @addReserve pid amount _ _ _ p reserve free hamount hp hadd _ hl _ =>
    have hq : s.tables.findPool ({ p with reserve, tempReserve := free } : Pool).id = some p :=
      s.tables.findPool_self hp
    rw [findPool_of_logged _ hl] at hp'
    rcases s.tables.eq_or_findPool_of_write (findPool_updatePool _ hq) hp' with ⟨hid, rfl⟩ | hp'
    · -- the topped-up pool: a positive amount is added to a reserve that is not negative
      have hpos := lt_iff_value_lt.mp (not_le_iff_lt.mp hamount)
      rw [value_zero] at hpos
      exact .kept (hid ▸ hq) (add_ge (h hp) hpos.le hadd).1
    · exact hsame hp' rfl
  | @payCommission _ _ _ _ _ _ p hp _ _ hl _ =>
    have hq : s.tables.findPool ({ p with isCommissionPaid := true } : Pool).id = some p :=
      s.tables.findPool_self hp
    rw [findPool_of_logged _ hl] at hp'
    rcases s.tables.eq_or_findPool_of_write (findPool_updatePool _ hq) hp' with ⟨hid, rfl⟩ | hp'
    · have hk : s.tables.findPool k = some p := hid ▸ hq
      exact .kept hk le_rfl
    · exact hsame hp' rfl
  | @setActive _ active _ _ _ p hp _ hl _ =>
    have hq : s.tables.findPool ({ p with isActive := active } : Pool).id = some p :=
      s.tables.findPool_self hp
    rw [findPool_of_logged _ hl] at hp'
    rcases s.tables.eq_or_findPool_of_write (findPool_updatePool _ hq) hp' with ⟨hid, rfl⟩ | hp'
    · have hk : s.tables.findPool k = some p := hid ▸ hq
      exact .kept hk le_rfl
    · exact hsame hp' rfl
  | deletePool hp _ _ _ hl _ =>
    rw [findPool_of_logged _ hl, findPool_deletePool _ hp] at hp'
    split at hp'
    · cases hp'
    · exact hsame hp' rfl
  | createStake _ _ _ _ _ _ _ hl _ =>
    rw [findPool_of_logged _ hl, findPool_saveStake] at hp'
    exact hsame hp' rfl
  | tick hr _ =>
    obtain ⟨q, hq, heq⟩ := hr.reserve_of_findPool hp'
    exact hsame hq heq
  | claimSent _ ht _ =>
    rw [ht] at hp'
    exact hsame hp' rfl
  | @claimSettled _ _ _ _ _ _ st p payout debit reserve free _ hc hsub _ hl _ =>
    have hq : s.tables.findPool ({ p with reserve, tempReserve := free } : Pool).id = some p :=
      s.tables.findPool_self hc.pool
    rw [findPool_of_logged _ hl] at hp'
    rcases s.tables.eq_or_findPool_of_write (findPool_settleClaim _ hc.findStake_paid hq) hp'
      with ⟨hid, rfl⟩ | hp'
    · -- the pool of the claimed stake: its reserve less the debit
      have hb := hc.debit_bounds ha
      exact .debited rfl hc ((s.tables.findPool_id hc.pool).symm.trans hid) hc.payout_le hb.1 hb.2
        hsub
    · exact hsame hp' rfl
  | @withdraw _ pid _ _ _ _ p liabilities _ _ hc hl _ =>
    have hq : s.tables.findPool (p.emptied liabilities).id = some p :=
      s.tables.findPool_self hc.pool
    rw [findPool_of_logged _ hl] at hp'
    rcases s.tables.eq_or_findPool_of_write (findPool_updatePool _ hq) hp' with ⟨hid, rfl⟩ | hp'
    · -- the withdrawn pool keeps nothing
      have hpid : pid = k := (s.tables.findPool_id hc.pool).symm.trans hid
      subst hpid
      exact .emptied rfl hc rfl
    · exact hsame hp' rfl

/-- What a transfer sent by operation `op` from tables `t`, leaving tables `t'`, pays. Either
a claim's payout, covered by the reserve of the stake's pool, with a debit between zero and
the payout, after which the tables are as they were (an overflow cut the claim short) or the
pool's reserve is its old reserve less the debit; or a withdrawal of what the reserve holds
above the liabilities, which are not negative, after which the pool's reserve is zero. -/
inductive CoveredPayout (op : LedgerOp) (t t' : MemoryTables) (req : TransferRequest) : Prop
  | claim {limits : CallLimits} {sid : Nat} {kind : ClaimKind} {st : Stake} {p : Pool}
      {payout debit : Decimal} {u : User} :
      op = .claim limits sid kind → ClaimChecks t sid kind st p payout debit u →
      req = claimRequest limits p u payout kind sid → payout.value ≤ p.reserve.value →
      0 ≤ debit.value → debit.value ≤ payout.value →
      (t' = t ∨ ∃ p', t'.findPool st.poolId = some p' ∧ p.reserve.sub debit = .ok p'.reserve) →
      CoveredPayout op t t' req
  | withdrawal {limits : CallLimits} {pid requester : Nat} {p : Pool}
      {liabilities amount : Decimal} {u : User} :
      op = .withdrawReserve limits pid requester →
      WithdrawChecks t pid requester p liabilities amount u →
      req = withdrawRequest limits p u amount pid → 0 ≤ liabilities.value → 0 ≤ amount.value →
      amount.value ≤ p.reserve.value →
      (∃ p', t'.findPool pid = some p' ∧ p'.reserve = Decimal.zero) →
      CoveredPayout op t t' req

/-- A step sends at most one transfer, and what it sends is a covered claim payout or a
withdrawal of the surplus. -/
theorem OpStep.sent {op : LedgerOp} {s s' : RunState} {r : Outcome} (hs : OpStep op s r s')
    (ha : s.tables.AccrualSound) :
    s'.transfers = s.transfers ∨
      ∃ req, s'.transfers = s.transfers ++ [req] ∧ CoveredPayout op s.tables s'.tables req := by
  cases hs with
  | quiet _ htr => exact .inl htr
  | registerUser _ htr => exact .inl htr
  | createPool _ _ _ htr => exact .inl htr
  | addReserve _ _ _ _ _ htr => exact .inl htr
  | payCommission _ _ _ _ htr => exact .inl htr
  | setActive _ _ _ htr => exact .inl htr
  | deletePool _ _ _ _ _ htr => exact .inl htr
  | createStake _ _ _ _ _ _ _ _ htr => exact .inl htr
  | tick _ htr => exact .inl htr
  | claimSent hc ht htr =>
    have hb := hc.debit_bounds ha
    exact .inr ⟨_, htr, .claim rfl hc rfl hc.payout_le hb.1 hb.2 (.inl ht)⟩
  | @claimSettled _ _ _ _ _ _ st p payout debit reserve free _ hc hsub _ hl htr =>
    have hb := hc.debit_bounds ha
    have hq : s.tables.findPool ({ p with reserve, tempReserve := free } : Pool).id = some p :=
      s.tables.findPool_self hc.pool
    -- the stake's pool now holds the reserve less the debit
    have hafter : s'.tables.findPool st.poolId = some { p with reserve, tempReserve := free } := by
      rw [findPool_of_logged _ hl, findPool_settleClaim _ hc.findStake_paid hq,
        if_pos (s.tables.findPool_id hc.pool)]
    exact .inr ⟨_, htr, .claim rfl hc rfl hc.payout_le hb.1 hb.2 (.inr ⟨_, hafter, hsub⟩)⟩
  | @withdraw _ pid _ _ _ _ p liabilities _ _ hc hl htr =>
    have hliab := outstandingLiability_nonneg hc.owed
    have hamount := sub_bounds hliab (le_iff_value_le.mp (not_lt_iff_le.mp hc.covered)) hc.surplus
    have hq : s.tables.findPool (p.emptied liabilities).id = some p :=
      s.tables.findPool_self hc.pool
    have hid : (p.emptied liabilities).id = pid := by
      simpa [Pool.emptied] using s.tables.findPool_id hc.pool
    have hafter : s'.tables.findPool pid = some (p.emptied liabilities) := by
      rw [findPool_of_logged _ hl, findPool_updatePool _ hq, if_pos hid]
    exact .inr ⟨_, htr, .withdrawal rfl hc rfl hliab hamount.1 hamount.2 ⟨_, hafter, rfl⟩⟩

/-- A step overdraws no reserve. -/
theorem OpStep.noOverdraw {op : LedgerOp} {s s' : RunState} {r : Outcome}
    (hs : OpStep op s r s') (hf : s.tables.Fresh) (ha : s.tables.AccrualSound)
    (h : s.tables.NoOverdraw) : s'.tables.NoOverdraw :=
  fun hp' => (hs.reserveAfter hf ha h hp').nonneg h

theorem noOverdraw_empty : NoOverdraw {} := fun h => by cases h

theorem RunState.Reachable.noOverdraw {s : RunState} (h : s.Reachable) :
    s.tables.NoOverdraw := by
  obtain ⟨-, -, hno⟩ := RunState.Reachable.invariant
    (I := fun s => s.tables.Fresh ∧ s.tables.AccrualSound ∧ s.tables.NoOverdraw)
    (fun _ _ => ⟨fresh_empty, accrualSound_empty, noOverdraw_empty⟩)
    (fun _ _ _ _ h hs => ⟨hs.fresh h.1, hs.accrualSound h.1 h.2.1, hs.noOverdraw h.1 h.2.1 h.2.2⟩) h
  exact hno

/-- In every reachable state, no pool's reserve is below zero and every stake's principal is
above zero. The next operation, whatever it is, sends at most one transfer: either a claim's
payout, which the reserve covered, debiting the reserve by an amount between zero and the
payout, or a withdrawal of what the reserve holds above the pool's liabilities, which leaves
the reserve at zero. And after it every pool's reserve is as it was or higher, or is a new
pool's deposit of at least one, or is its old reserve less such a debit, or is zero after
such a withdrawal. -/
theorem reserves_never_overdrawn {s : RunState} (h : s.Reachable) (op : LedgerOp) :
    ((∀ {k p}, s.tables.findPool k = some p → 0 ≤ p.reserve.value) ∧
      ∀ {k st}, s.tables.findStake k = some st → 0 < st.amount.value) ∧
    ((op.exec s).2.transfers = s.transfers ∨
      ∃ req, (op.exec s).2.transfers = s.transfers ++ [req] ∧
        CoveredPayout op s.tables (op.exec s).2.tables req) ∧
    ∀ {k p'}, (op.exec s).2.tables.findPool k = some p' →
      ReserveAfter op s.tables k p'.reserve := by
  have hf := h.fresh
  have ha := h.accrualSound
  have hstep := op.exec_step s
  exact ⟨⟨h.noOverdraw, ha.principal⟩, hstep.sent ha, hstep.reserveAfter hf ha h.noOverdraw⟩

/-- The empty store, which a run of no operation reaches, overdraws nothing either, here on
the first tick of the accrual pass. -/
theorem reserves_never_overdrawn_at_start :
    let s := RunState.start ⟨fun _ _ => none, fun _ _ => none, fun _ _ => none⟩ ⟨0, 0⟩
    let op := LedgerOp.tick 0 ⟨0, 0⟩
    ((∀ {k p}, s.tables.findPool k = some p → 0 ≤ p.reserve.value) ∧
      ∀ {k st}, s.tables.findStake k = some st → 0 < st.amount.value) ∧
    ((op.exec s).2.transfers = s.transfers ∨
      ∃ req, (op.exec s).2.transfers = s.transfers ++ [req] ∧
        CoveredPayout op s.tables (op.exec s).2.tables req) ∧
    ∀ {k p'}, (op.exec s).2.tables.findPool k = some p' → ReserveAfter op s.tables k p'.reserve :=
  reserves_never_overdrawn ⟨_, _, [], rfl⟩ _

end PoolTreasury
