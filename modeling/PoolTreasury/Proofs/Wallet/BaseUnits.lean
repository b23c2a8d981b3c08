import Mathlib.Algebra.Order.Floor.Semifield
import Mathlib.Data.Nat.Cast.Field
import PoolTreasury.Proofs.Decimal.Exact
import PoolTreasury.Wallet.Units

/-! # Exact base units

An amount goes on chain as whole base units, `amount · 10^decimals` truncated, and comes
back as `units / 10^decimals` with its trailing zeros stripped. Neither direction rounds.
Multiplying by a power of ten up to `10^28` loses no digit, so `toBaseUnits` answers the
floor of the exact product, and refuses exactly the amounts whose product reaches `2^96`
(`toBaseUnits_eq`). Stripping zeros keeps the value (`value_normalize`), so `fromBaseUnits`
answers `units / 10^decimals` for every `units` below `2^96` and refuses every other
(`fromBaseUnits_value`, `fromBaseUnits_fails`).

The main statement, `baseUnits_exact`, puts the two together: whole base units survive the
round trip, and an amount that goes there and back comes back truncated to `decimals` places.
-/

namespace PoolTreasury

namespace Decimal

/-- Ten to at most the largest scale is a mantissa. -/
theorem pow_ten_lt_mantissaBound {d : Nat} (hd : d ≤ maxScale) : 10 ^ d < mantissaBound :=
  calc 10 ^ d ≤ 10 ^ 28 := Nat.pow_le_pow_right (by decide) hd
    _ < mantissaBound := by decide

/-- A number below `2^96` is its own mantissa at scale zero. -/
theorem ofNat_of_lt {n : Nat} (h : n < mantissaBound) :
    ofNat n = ⟨n, 0, false, h, Nat.zero_le _⟩ := by
  simp [ofNat, h]

/-- A mantissa divided by a power of ten that divides it, at a scale that much smaller, keeps
its value. -/
theorem value_strip {m s k : Nat} (hk : k ≤ s) (hdvd : 10 ^ k ∣ m) :
    ((m / 10 ^ k : Nat) : ℚ) / 10 ^ (s - k) = (m : ℚ) / 10 ^ s := by
  rw [Nat.cast_div hdvd (by positivity), div_div, Nat.cast_pow, Nat.cast_ofNat, ← pow_add,
    Nat.add_sub_cancel' hk]

/-- The last position up to `n` that passes a test that `0` passes. -/
theorem find?_range_reverse_getD {n : Nat} {p : Nat → Bool} (h0 : p 0 = true) :
    ((List.range (n + 1)).reverse.find? p).getD 0 ≤ n ∧
      p (((List.range (n + 1)).reverse.find? p).getD 0) = true := by
  cases hfind : (List.range (n + 1)).reverse.find? p with
  | none => exact ⟨Nat.zero_le _, h0⟩
  | some j =>
    have hmem := List.mem_of_find?_eq_some hfind
    rw [List.mem_reverse, List.mem_range] at hmem
    exact ⟨Nat.le_of_lt_succ hmem, List.find?_some hfind⟩

/-- A decimal with `k` trailing zeros stripped, `k` at most its scale, keeps its value. -/
theorem value_stripped (d : Decimal) {k : Nat} (hk : k ≤ d.scale) (hdvd : 10 ^ k ∣ d.mantissa)
    (hm : d.mantissa / 10 ^ k < mantissaBound) (hs : d.scale - k ≤ maxScale) :
    (⟨d.mantissa / 10 ^ k, d.scale - k, d.negative, hm, hs⟩ : Decimal).value = d.value := by
  rw [value_eq, value_eq]
  cases d.negative <;> simp only [Bool.false_eq_true, if_false, if_true, neg_div,
    value_strip hk hdvd]

/-- Stripping trailing zeros keeps the value. -/
theorem value_normalize (d : Decimal) : d.normalize.value = d.value := by
  unfold normalize
  split
  · rename_i h0
    rw [value_zero, value_of_mantissa_zero h0]
  · -- the number of zeros stripped is at most the scale, and ten to it divides the mantissa
    obtain ⟨hk, hzero⟩ := find?_range_reverse_getD (n := d.scale)
      (p := fun k => d.mantissa % 10 ^ k = 0) (by simp [Nat.mod_one])
    exact value_stripped d hk (Nat.dvd_of_mod_eq_zero (by simpa using hzero)) _ _

/-- Truncating a value that is not negative leaves its floor as the mantissa. -/
theorem trunc_mantissa_eq_floor {c : Decimal} (hc : 0 ≤ c.value) :
    c.trunc.mantissa = ⌊c.value⌋₊ := by
  rcases (value_nonneg_iff c).mp hc with hneg | hm0
  · rw [value_of_not_negative hneg, show (10 : ℚ) ^ c.scale = ((10 ^ c.scale : Nat) : ℚ) by
      push_cast; rfl, Nat.floor_div_eq_div]
    rfl
  · simp [trunc, hm0, value_of_mantissa_zero hm0]

/-- A value that is not negative, times a power of ten, is held by a decimal when it stays
below `2^96`: it is whole when the power is at least the scale, and otherwise it is the same
mantissa at a smaller scale. -/
theorem representable_mul_pow_ten {a : Decimal} (ha : a.negative = false) (d : Nat)
    (h : a.value * 10 ^ d < mantissaBound) : Representable (a.value * 10 ^ d) := by
  rw [value_of_not_negative ha] at h ⊢
  by_cases hs : a.scale ≤ d
  · -- a whole number
    have hv : (a.mantissa : ℚ) / 10 ^ a.scale * 10 ^ d =
        ((a.mantissa * 10 ^ (d - a.scale) : Nat) : ℚ) := by
      obtain ⟨e, rfl⟩ := Nat.exists_eq_add_of_le hs
      rw [Nat.add_sub_cancel_left, pow_add]
      push_cast
      field_simp
    rw [hv] at h ⊢
    have hlt : a.mantissa * 10 ^ (d - a.scale) < mantissaBound := by exact_mod_cast h
    exact ⟨ofNatBelow _ hlt, value_mk hlt (Nat.zero_le _) |>.trans (by simp)⟩
  · -- the mantissa at the scale `a.scale - d`
    have hle : a.scale - d ≤ maxScale := Nat.le_trans (Nat.sub_le _ _) a.scale_le
    refine ⟨⟨a.mantissa, a.scale - d, false, a.mantissa_lt, hle⟩, ?_⟩
    rw [value_mk, ← Nat.sub_add_cancel (Nat.le_of_lt (Nat.lt_of_not_le hs)), pow_add,
      Nat.add_sub_cancel]
    field_simp

section PowTen

variable {a : Decimal} {d : Nat}

/-- Multiplying by ten to at most 28 is exact while the product stays below `2^96`. -/
theorem mul?_pow_ten_exact (ha : 0 ≤ a.value) (hd : d ≤ maxScale)
    (h : a.value * 10 ^ d < mantissaBound) :
    ∃ c, a.mul? (ofNat (10 ^ d)) = some c ∧ c.value = a.value * 10 ^ d := by
  by_cases hm0 : a.mantissa = 0
  · refine ⟨zero, by simp [mul?, hm0], ?_⟩
    rw [value_zero, value_of_mantissa_zero hm0, zero_mul]
  · obtain ⟨c, hc⟩ := representable_mul_pow_ten (negative_of_value_nonneg ha hm0) d h
    have hpow : (ofNat (10 ^ d)).value = 10 ^ d := by
      rw [value_ofNat (pow_ten_lt_mantissaBound hd)]
      push_cast
      rfl
    obtain ⟨c', hc', hcv⟩ := mul?_exact (a := a) (b := ofNat (10 ^ d)) (d := c) (by rw [hpow, hc])
    exact ⟨c', hc', hcv.trans hc⟩

/-- Multiplying by ten to at most 28 fails once the product reaches `2^96`: its whole part
alone no longer fits. -/
theorem mul?_pow_ten_eq_none (ha : 0 ≤ a.value) (hd : d ≤ maxScale)
    (h : (mantissaBound : ℚ) ≤ a.value * 10 ^ d) : a.mul? (ofNat (10 ^ d)) = none := by
  have hm0 : a.mantissa ≠ 0 := by
    intro h0
    rw [value_of_mantissa_zero h0, zero_mul] at h
    exact absurd h (by unfold mantissaBound; norm_num)
  have hneg := negative_of_value_nonneg ha hm0
  -- the truncated product is at least the bound, and rounding never goes below it
  have hbig : mantissaBound ≤ a.mantissa * 10 ^ d / 10 ^ a.scale := by
    rw [Nat.le_div_iff_mul_le (by positivity)]
    rw [value_of_not_negative hneg, div_mul_eq_mul_div, le_div_iff₀ (by positivity)] at h
    exact_mod_cast h
  have hnone : fit? a.negative (a.mantissa * 10 ^ d) a.scale = none := by
    rw [← Option.not_isSome_iff_eq_none, fit?_isSome_iff]
    exact Nat.not_lt.mpr (Nat.le_trans hbig (div_le_roundDiv _ _))
  have hlong : ¬ maxScale + 19 < a.scale := by
    have := a.scale_le
    unfold maxScale at *
    omega
  unfold mul?
  rw [ofNat_of_lt (pow_ten_lt_mantissaBound hd)]
  simp [hm0, hlong, hnone]

end PowTen

end Decimal

open Decimal in
/-- An amount that is not negative, with at most 28 decimals, converts to the floor of its exact
product with `10^decimals` when that product is below `2^96`, and is refused otherwise. -/
theorem toBaseUnits_eq {a : Decimal} (ha : 0 ≤ a.value) {d : Nat} (hd : d ≤ maxDecimals) :
    toBaseUnits a d = if a.value * 10 ^ d < 2 ^ 96 then .ok ⌊a.value * 10 ^ d⌋₊
      else .error (.invalidAmount (a.render ++ " overflows base units")) := by
  have hpos : a.isNegativeValue = false := by
    rcases (value_nonneg_iff a).mp ha with hneg | hm0 <;> simp [isNegativeValue, *]
  have hbound : (2 : ℚ) ^ 96 = mantissaBound := by
    rw [mantissaBound_eq]
    push_cast
    rfl
  unfold toBaseUnits
  simp only [hpos, Bool.false_eq_true, if_false, if_neg (Nat.not_lt.mpr hd), hbound]
  split_ifs with hfit
  · obtain ⟨c, hc, hcv⟩ := mul?_pow_ten_exact ha hd hfit
    have hc0 : 0 ≤ c.value := by
      rw [hcv]
      exact Rat.mul_nonneg ha (by positivity)
    simp only [hc]
    rw [trunc_mantissa_eq_floor hc0, hcv]
  · rw [mul?_pow_ten_eq_none ha hd (not_lt.mp hfit)]

/-- So an amount converts to `u` exactly when its product is below `2^96` with floor `u`. -/
theorem toBaseUnits_eq_ok_iff {a : Decimal} (ha : 0 ≤ a.value) {d u : Nat}
    (hd : d ≤ maxDecimals) :
    toBaseUnits a d = .ok u ↔ a.value * 10 ^ d < 2 ^ 96 ∧ ⌊a.value * 10 ^ d⌋₊ = u := by
  rw [toBaseUnits_eq ha hd]
  split_ifs with hfit <;> simp [hfit]

/-- Base units below `2^96` come back as a decimal worth `units / 10^decimals`. -/
theorem fromBaseUnits_value {u d : Nat} (hu : u < mantissaBound) (hd : d ≤ maxDecimals) :
    ∃ b, fromBaseUnits u d = .ok b ∧ b.value = (u : ℚ) / 10 ^ d := by
  have hscale : d ≤ maxScale := hd
  refine ⟨(⟨u, d, false, hu, hscale⟩ : Decimal).normalize, ?_, ?_⟩
  · simp [fromBaseUnits, Decimal.ofParts?, hu, Nat.not_lt.mpr hd, hscale]
  · rw [Decimal.value_normalize]
    exact Decimal.value_mk hu hscale

/-- Base units from `2^96` on are refused, whatever the decimals. -/
theorem fromBaseUnits_fails {u : Nat} (hu : mantissaBound ≤ u) (d : Nat) :
    ∃ e, fromBaseUnits u d = .error e := by
  unfold fromBaseUnits
  split
  · exact ⟨_, rfl⟩
  · simp [Decimal.ofParts?, Nat.not_lt.mpr hu]

/-- Truncating to `d` places moves a value that is not negative down, by less than `10^-d`. -/
theorem floor_places_close {x : ℚ} (hx : 0 ≤ x) (d : Nat) :
    (⌊x * 10 ^ d⌋₊ : ℚ) / 10 ^ d ≤ x ∧ x - (⌊x * 10 ^ d⌋₊ : ℚ) / 10 ^ d < 1 / 10 ^ d := by
  have hpow : (0 : ℚ) < 10 ^ d := by positivity
  have hx' : x = x * 10 ^ d / 10 ^ d := by field_simp
  constructor
  · calc (⌊x * 10 ^ d⌋₊ : ℚ) / 10 ^ d ≤ x * 10 ^ d / 10 ^ d :=
          div_le_div_of_nonneg_right (Nat.floor_le (by positivity)) hpow.le
      _ = x := hx'.symm
  · calc x - (⌊x * 10 ^ d⌋₊ : ℚ) / 10 ^ d = (x * 10 ^ d - ⌊x * 10 ^ d⌋₊) / 10 ^ d := by
          rw [sub_div, ← hx']
      _ < 1 / 10 ^ d := by
          apply div_lt_div_of_pos_right _ hpow
          linarith [Nat.lt_floor_add_one (x * 10 ^ d)]

/-- Base-unit conversion is exact. Whole base units below `2^96` survive the round trip through a
decimal, and from `2^96` on they are refused. An amount that is not negative converts to the
floor of its product with `10^decimals` exactly when that product is below `2^96`, so going there
and back truncates it to `decimals` places. -/
theorem baseUnits_exact :
    (∀ u d, u < 2 ^ 96 → d ≤ maxDecimals →
      ∃ a, fromBaseUnits u d = .ok a ∧ toBaseUnits a d = .ok u) ∧
    (∀ u d, 2 ^ 96 ≤ u → ∃ e, fromBaseUnits u d = .error e) ∧
    (∀ (a : Decimal) d, 0 ≤ a.value → d ≤ maxDecimals →
      toBaseUnits a d = if a.value * 10 ^ d < 2 ^ 96 then .ok ⌊a.value * 10 ^ d⌋₊
        else .error (.invalidAmount (a.render ++ " overflows base units"))) ∧
    (∀ (a : Decimal) d u, 0 ≤ a.value → d ≤ maxDecimals → toBaseUnits a d = .ok u →
      ∃ b, fromBaseUnits u d = .ok b ∧ b.value = (⌊a.value * 10 ^ d⌋₊ : ℚ) / 10 ^ d ∧
        b.value ≤ a.value ∧ a.value - b.value < 1 / 10 ^ d) := by
  refine ⟨fun u d hu hd => ?_, fun u d hu => fromBaseUnits_fails (mantissaBound_eq ▸ hu) d,
    fun a d ha hd => toBaseUnits_eq ha hd, fun a d u ha hd h => ?_⟩
  · -- the decimal is worth `u / 10^d`, so its product is `u` again
    obtain ⟨a, ha, hav⟩ := fromBaseUnits_value (mantissaBound_eq ▸ hu) hd
    have hback : a.value * 10 ^ d = u := by
      rw [hav]
      field_simp
    refine ⟨a, ha, (toBaseUnits_eq_ok_iff (hav ▸ by positivity) hd).mpr ?_⟩
    rw [hback, Nat.floor_natCast]
    exact ⟨by exact_mod_cast hu, rfl⟩
  · -- the units are the floor, which is below `2^96`, and they come back over `10^d`
    obtain ⟨hfit, rfl⟩ := (toBaseUnits_eq_ok_iff ha hd).mp h
    have hu : ⌊a.value * 10 ^ d⌋₊ < mantissaBound := by
      rw [mantissaBound_eq, Nat.floor_lt (Rat.mul_nonneg ha (by positivity))]
      exact_mod_cast hfit
    obtain ⟨b, hb, hbv⟩ := fromBaseUnits_value hu hd
    rw [← hbv]
    exact ⟨b, hb, rfl, hbv ▸ floor_places_close ha d⟩

/-- `1500000000` units at nine decimals go there and back, and `1.234567` at two decimals
loses the dust below a hundredth. -/
theorem baseUnits_exact_drops_dust :
    (∃ a, fromBaseUnits 1500000000 9 = .ok a ∧ toBaseUnits a 9 = .ok 1500000000) ∧
      ∃ a, fromBaseUnits 1234567 6 = .ok a ∧ toBaseUnits a 2 = .ok 123 ∧
        ∃ b, fromBaseUnits 123 2 = .ok b ∧ b.value = (⌊a.value * 10 ^ 2⌋₊ : ℚ) / 10 ^ 2 ∧
          b.value ≤ a.value ∧ a.value - b.value < 1 / 10 ^ 2 :=
  ⟨baseUnits_exact.1 _ _ (by decide) (by decide), _, rfl, by decide,
    baseUnits_exact.2.2.2 _ _ _ ((Decimal.value_nonneg_iff _).mpr (.inl rfl)) (by decide)
      (by decide)⟩

end PoolTreasury
