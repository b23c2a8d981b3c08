import PoolTreasury.Proofs.Decimal.Exact
import PoolTreasury.Proofs.Accrual.DailyStep
import PoolTreasury.Proofs.Run.Step

/-! # The accrual schedule of a stake

Before its term ends a stake earns one day of reward on each pass: `nextBalance` adds the
daily bonus while the balance is below the cap, and a pass at the cap changes nothing, so
every later pass changes nothing either (`accrualBalances`).

When the daily bonus is positive and the balances on the way, like the whole reward, are
decimals, the schedule is the one of exact arithmetic (`accrual_reaches_cap_in_period`):
`periodDays` passes raise the balance by one bonus each, the last one to the cap, and every
later pass finds the cap reached. A bonus that is rounded away to zero, as on a principal
of `10^-28` at one percent, makes the cap the principal itself, and no pass adds anything.
-/

namespace PoolTreasury

open Decimal

/-- The balances a stake reaches over `ticks` passes before its term ends, the stake's
balance written back after each: the list stops at the first pass that finds the cap. -/
def accrualBalances (p : Pool) (st : Stake) : Nat → Except Overflow (List Decimal)
  | 0 => .ok []
  | ticks + 1 => do
    match ← nextBalance p st with
    | none => pure []
    | some balance => do
      let rest ← accrualBalances p { st with balance } ticks
      pure (balance :: rest)

section Schedule

/- The pool, the principal and the bonus it earns a day; every balance on the way is a
decimal, and so is the whole reward. -/
variable {p : Pool} {amount bonus : Decimal}
  (ha : 0 ≤ amount.value) (hbonus : dailyBonus amount p.rewardPercent = .ok bonus)
  (hpos : 0 < bonus.value) (hdays : p.periodDays < mantissaBound)
  (htotal : Representable (p.periodDays * bonus.value))
  (hway : ∀ k ≤ p.periodDays, Representable (amount.value + k * bonus.value))

include ha hbonus hdays htotal hway in
/-- The cap is computed exactly: the principal and `periodDays` bonuses. -/
theorem accrualCap_exact (hb : 0 ≤ bonus.value) :
    ∃ cap, accrualCap amount p.rewardPercent p.periodDays = .ok cap ∧
      cap.value = amount.value + p.periodDays * bonus.value := by
  obtain ⟨d, hd⟩ := htotal
  obtain ⟨total, htot, htv⟩ := mul_exact (a := bonus) (b := ofNat p.periodDays) (d := d)
    (by rw [value_ofNat hdays, hd, mul_comm])
  obtain ⟨e, he⟩ := hway p.periodDays le_rfl
  obtain ⟨cap, hcap, hcv⟩ := add?_exact (a := total) (b := amount) (d := e)
    (by rw [htv, hd]; positivity) ha (by rw [htv, hd, he, add_comm])
  refine ⟨cap, ?_, by rw [hcv, he]⟩
  simp only [accrualCap, hbonus, htot, Except.ok_bind, add, orOverflow, hcap]

include ha hbonus hpos hdays htotal hway in
/-- Below the cap a pass adds one bonus. -/
theorem nextBalance_on_way {st : Stake} (hamount : st.amount = amount) {k : Nat}
    (hk : k < p.periodDays) (hbal : st.balance.value = amount.value + k * bonus.value) :
    ∃ next, nextBalance p st = .ok (some next) ∧
      next.value = amount.value + (k + 1) * bonus.value := by
  subst hamount
  obtain ⟨cap, hcap, hcv⟩ := accrualCap_exact ha hbonus hdays htotal hway hpos.le
  have hk' : (k : ℚ) + 1 ≤ p.periodDays := by exact_mod_cast hk
  have hbelow : ¬ cap ≤ st.balance := by
    rw [not_le_iff_lt, lt_iff_value_lt, hbal, hcv]
    nlinarith
  obtain ⟨e, he⟩ := hway (k + 1) hk
  obtain ⟨next, hnext, hnv⟩ := add?_exact (a := st.balance) (b := bonus) (d := e)
    (by rw [hbal]; positivity) hpos.le (by rw [hbal, he]; push_cast; ring)
  -- the sum stays at or below the cap, so the smaller of the two is the sum
  have hmin : next.min cap = next := by
    unfold Decimal.min
    rw [if_neg]
    rw [not_lt_iff_le, le_iff_value_le, hnv, he, hcv]
    push_cast
    nlinarith
  refine ⟨next, ?_, by rw [hnv, he]; push_cast; ring⟩
  simp only [nextBalance, hcap, Except.ok_bind, hbelow, if_false, hbonus, add, orOverflow,
    hnext, hmin]
  rfl

include ha hbonus hpos hdays htotal hway in
/-- At the cap a pass adds nothing. -/
theorem nextBalance_at_cap {st : Stake} (hamount : st.amount = amount)
    (hbal : st.balance.value = amount.value + p.periodDays * bonus.value) :
    nextBalance p st = .ok none := by
  subst hamount
  obtain ⟨cap, hcap, hcv⟩ := accrualCap_exact ha hbonus hdays htotal hway hpos.le
  have hreached : cap ≤ st.balance := by
    rw [le_iff_value_le, hbal, hcv]
  simp only [nextBalance, hcap, Except.ok_bind, hreached, if_true]
  rfl

include ha hbonus hpos hdays htotal hway in
/-- From the balance of `k` bonuses, the passes add one bonus each until `periodDays`. The
induction is on the passes, for every stake of the principal and every `k` at once. -/
theorem accrualBalances_from (ticks : Nat) :
    ∀ (st : Stake) (k : Nat), st.amount = amount → k ≤ p.periodDays →
      st.balance.value = amount.value + k * bonus.value →
      ∃ balances, accrualBalances p st ticks = .ok balances ∧
        balances.length = min ticks (p.periodDays - k) ∧
        ∀ j (hj : j < balances.length),
          balances[j].value = amount.value + (k + j + 1) * bonus.value := by
  induction ticks with
  | zero => exact fun _ _ _ _ _ => ⟨[], rfl, by simp, by simp⟩
  | succ ticks ih =>
    intro st k hamount hk hbal
    rcases Nat.lt_or_ge k p.periodDays with hlt | hge
    · -- a bonus is added and the walk goes on from `k + 1` bonuses
      obtain ⟨next, hnext, hnv⟩ :=
        nextBalance_on_way ha hbonus hpos hdays htotal hway hamount hlt hbal
      obtain ⟨rest, hrest, hlen, hvals⟩ := ih { st with balance := next } (k + 1) hamount hlt
        (by rw [hnv]; push_cast; ring)
      refine ⟨next :: rest, ?_, ?_, ?_⟩
      · simp only [accrualBalances, hnext, Except.ok_bind, hrest]
        rfl
      · simp only [List.length_cons, hlen]
        omega
      · intro j hj
        cases j with
        | zero => simp [hnv]
        | succ j =>
          simp only [List.getElem_cons_succ]
          rw [hvals j (by simpa using hj)]
          push_cast
          ring
    · -- the cap is reached
      have hkeq : k = p.periodDays := le_antisymm hk hge
      subst hkeq
      refine ⟨[], ?_, by simp, by simp⟩
      simp only [accrualBalances, nextBalance_at_cap ha hbonus hpos hdays htotal hway hamount hbal,
        Except.ok_bind]
      rfl

end Schedule

theorem accrual_reaches_cap_in_period (p : Pool) (st : Stake) {bonus : Decimal}
    (ha : 0 ≤ st.amount.value) (hbal : st.balance.value = st.amount.value)
    (hbonus : dailyBonus st.amount p.rewardPercent = .ok bonus) (hpos : 0 < bonus.value)
    (hdays : p.periodDays < mantissaBound)
    (htotal : Representable (p.periodDays * bonus.value))
    (hway : ∀ k ≤ p.periodDays, Representable (st.amount.value + k * bonus.value))
    (ticks : Nat) :
    ∃ balances, accrualBalances p st ticks = .ok balances ∧
      balances.length = min ticks p.periodDays ∧
      (∀ k (hk : k < balances.length),
        balances[k].value = st.amount.value + (k + 1) * bonus.value) ∧
      ∃ cap, accrualCap st.amount p.rewardPercent p.periodDays = .ok cap ∧
        cap.value = st.amount.value + p.periodDays * bonus.value := by
  obtain ⟨balances, hrun, hlen, hvals⟩ := accrualBalances_from ha hbonus hpos hdays htotal hway
    ticks st 0 rfl (Nat.zero_le _) (by rw [hbal]; simp)
  refine ⟨balances, hrun, by rw [hlen, Nat.sub_zero], fun k hk => ?_,
    accrualCap_exact ha hbonus hdays htotal hway hpos.le⟩
  rw [hvals k hk, Nat.cast_zero, zero_add]

/-- A principal of 100 at one percent a day for three days grows by one a day, three
times, and stays at 103 after. -/
theorem hundred_at_one_percent_for_three_days :
    ∃ balances, accrualBalances (NewPool.toPool ⟨1, ofNat 1000, "", "", one, 3, ofNat 10⟩ ⟨0, 0⟩)
      (Stake.opening 1 1 (ofNat 100) one 3 ⟨0, 0⟩) 5 = .ok balances ∧ balances.length = 3 ∧
      ∀ k (hk : k < balances.length), balances[k].value = 100 + (k + 1) := by
  have h100 : (ofNat 100).value = 100 := value_ofNat (by decide)
  obtain ⟨balances, hrun, hlen, hvals, -⟩ := @accrual_reaches_cap_in_period
    (NewPool.toPool ⟨1, ofNat 1000, "", "", one, 3, ofNat 10⟩ ⟨0, 0⟩)
    (Stake.opening 1 1 (ofNat 100) one 3 ⟨0, 0⟩) one (value_ofNat_nonneg 100) rfl
    (by rfl) (by simp) (by decide) ⟨ofNat 3, by
      show _ = ((3 : Nat) : ℚ) * one.value
      rw [value_ofNat (by decide), value_one, mul_one]⟩
    (fun k hk => ⟨ofNat (100 + k), by
      have hk' : k ≤ 3 := hk
      show _ = (ofNat 100).value + k * one.value
      rw [value_ofNat (by unfold mantissaBound; omega), h100, value_one]
      push_cast
      ring⟩) 5
  refine ⟨balances, hrun, hlen, fun k hk => ?_⟩
  rw [hvals k hk]
  show (ofNat 100).value + _ = _
  rw [h100, value_one, mul_one]

/-- A principal of `10^-28` at one percent earns `10^-30` a day, rounded away to zero: the
cap is the principal, and no pass adds anything. -/
example : accrualBalances (NewPool.toPool ⟨1, ofNat 1000, "", "", one, 1, ofNat 10⟩ ⟨0, 0⟩)
    (Stake.opening 1 1 ⟨1, 28, false, by decide, by decide⟩ one 1 ⟨0, 0⟩) 10 = .ok [] := by
  rfl

end PoolTreasury
