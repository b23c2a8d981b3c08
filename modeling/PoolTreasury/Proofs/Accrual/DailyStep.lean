import PoolTreasury.Proofs.Decimal.Value
import PoolTreasury.Ledger.Accounting

/-! # One day of accrual

A day's bonus on a principal that is not negative, at a reward rate that is not negative, is
not negative. The cap therefore lies at or above the principal, and a step of `nextBalance`
never lowers a balance and never passes the cap, whatever the sum rounds to: the sum is
at least the balance, and taking the smaller of it and the cap keeps both bounds.
-/

namespace PoolTreasury

open Decimal

theorem dailyBonus_nonneg {amount rate bonus : Decimal} (ha : 0 ≤ amount.value)
    (hr : 0 ≤ rate.value) (h : dailyBonus amount rate = .ok bonus) : 0 ≤ bonus.value := by
  obtain ⟨x, hx, hdiv⟩ := bind_eq_ok_iff.mp h
  exact div_nonneg (mul_nonneg ha hr hx) ((value_nonneg_iff _).mpr (Or.inl rfl)) hdiv

/-- The cap of a stake is at least its principal. -/
theorem amount_le_accrualCap {amount rate cap : Decimal} {days : Nat} (ha : 0 ≤ amount.value)
    (hr : 0 ≤ rate.value) (h : accrualCap amount rate days = .ok cap) : amount ≤ cap := by
  obtain ⟨bonus, hbonus, h⟩ := bind_eq_ok_iff.mp h
  obtain ⟨total, htotal, h⟩ := bind_eq_ok_iff.mp h
  have hb := dailyBonus_nonneg ha hr hbonus
  have ht := mul_nonneg hb (value_ofNat_nonneg days) htotal
  exact le_iff_value_le.mpr (add_ge ht ha h).2

/-- One day of accrual raises the balance, up to the cap at most. -/
theorem nextBalance_bounds {p : Pool} {s : Stake} {next : Decimal} (ha : 0 ≤ s.amount.value)
    (hr : 0 ≤ p.rewardPercent.value) (hb : 0 ≤ s.balance.value)
    (h : nextBalance p s = .ok (some next)) :
    s.balance ≤ next ∧
      ∀ cap, accrualCap s.amount p.rewardPercent p.periodDays = .ok cap → next ≤ cap := by
  unfold nextBalance at h
  obtain ⟨cap, hcap, h⟩ := bind_eq_ok_iff.mp h
  split at h
  · cases h
  · rename_i hbelow
    obtain ⟨bonus, hbonus, h⟩ := bind_eq_ok_iff.mp h
    obtain ⟨sum, hsum, h⟩ := bind_eq_ok_iff.mp h
    cases h
    have hgrow := (add_ge hb (dailyBonus_nonneg ha hr hbonus) hsum).1
    refine ⟨le_min (le_iff_value_le.mpr hgrow) (le_of_lt (not_le_iff_lt.mp hbelow)), ?_⟩
    intro cap' hcap'
    rw [hcap] at hcap'
    cases hcap'
    exact min_le_right sum cap

end PoolTreasury
