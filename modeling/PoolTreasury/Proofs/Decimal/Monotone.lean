import Mathlib.Tactic.Linarith
import PoolTreasury.Proofs.Decimal.Value

/-! # Rounding keeps the order of values

`fit?` rounds an exact value `n / 10^s` half to even, at the finest scale, from `s` down,
where the mantissa fits below `2^96`. Rounding at one scale is monotone. Two values rounded at
different scales also keep their order: the one rounded at the coarser scale was either exact
there, and so lies on the finer grid too, or would not fit one digit finer, and then it is past
a tenth of the bound, beyond every value that fits at the finer scale.

So `Rounds v x`, "`x` is the value of what `fit?` gives for the exact value `v`", is monotone
in `v` (`Rounds.le`); sums and differences of values that are not negative are roundings of
the exact results (`add?_rounds`, `sub?_rounds`), and a decimal that is not negative rounds to
itself. Differences and sums of the ledger's amounts are then compared through their exact
values.
-/

namespace PoolTreasury

/-- Rounding to the nearest, a tie to the even neighbour, is monotone: a quotient at most
another rounds to at most the other's rounding, whatever the two divisors. -/
theorem roundDiv_mono {n k n' k' : Nat} (h : n * 10 ^ k' ≤ n' * 10 ^ k) :
    roundDiv n k ≤ roundDiv n' k' := by
  have hp : 0 < 10 ^ k := Nat.pow_pos (by decide)
  have hp' : 0 < 10 ^ k' := Nat.pow_pos (by decide)
  have hn := Nat.div_add_mod n (10 ^ k)
  have hn' := Nat.div_add_mod n' (10 ^ k')
  have hr := Nat.mod_lt n hp
  have hr' := Nat.mod_lt n' hp'
  simp only [roundDiv]
  generalize n / 10 ^ k = q at *
  generalize n % 10 ^ k = r at *
  generalize n' / 10 ^ k' = q' at *
  generalize n' % 10 ^ k' = r' at *
  generalize 10 ^ k = p at *
  generalize 10 ^ k' = p' at *
  subst hn hn'
  -- the whole parts are in order
  have hq : q ≤ q' := by
    by_contra hlt
    have hq1 : q' + 1 ≤ q := by omega
    have : (p' * q' + r') * p < (p * q + r) * p' :=
      calc (p' * q' + r') * p < (p' * q' + p') * p := Nat.mul_lt_mul_of_pos_right (by omega) hp
        _ = p * p' * (q' + 1) := by ring
        _ ≤ p * p' * q := Nat.mul_le_mul_left _ hq1
        _ ≤ (p * q + r) * p' := by nlinarith
    omega
  rcases Nat.lt_or_ge q q' with hlt | hge
  · split_ifs <;> omega
  · -- equal whole parts: the remainders are in the same order, relative to their divisors
    have hqq : q = q' := Nat.le_antisymm hq hge
    subst hqq
    have hrr : r * p' ≤ r' * p := by nlinarith
    split_ifs with h1 h2 <;> try omega
    exfalso
    rcases h1 with h1 | ⟨h1, hodd⟩
    · have : p * p' < 2 * r' * p := by nlinarith
      have : p' < 2 * r' := by
        by_contra hc
        have : 2 * r' * p ≤ p' * p := Nat.mul_le_mul_right p (by omega)
        nlinarith
      exact h2 (Or.inl this)
    · have : p' ≤ 2 * r' := by
        by_contra hc
        have : 2 * r' * p < p' * p := Nat.mul_lt_mul_of_pos_right (by omega) (by omega)
        nlinarith
      rcases Nat.eq_or_lt_of_le this with heq | hlt
      · exact h2 (Or.inr ⟨heq.symm, hodd⟩)
      · exact h2 (Or.inl hlt)

namespace Decimal

/-- `x` is the value of what `fit?` gives for some exact writing `n / 10^s` of `v`. -/
def Rounds (v x : ℚ) : Prop :=
  ∃ (n s : Nat) (d : Decimal), (n : ℚ) / 10 ^ s = v ∧ fit? false n s = some d ∧ d.value = x

/-- Decimals that are not negative compare as their mantissas at each other's scale. -/
theorem value_le_of_mul_le {d d' : Decimal} (hd : d.negative = false) (hd' : d'.negative = false)
    (h : d.mantissa * 10 ^ d'.scale ≤ d'.mantissa * 10 ^ d.scale) : d.value ≤ d'.value := by
  rw [value_of_not_negative hd, value_of_not_negative hd',
    div_le_div_iff₀ (by positivity) (by positivity)]
  exact_mod_cast h

/-- Cancelling a common power of ten. -/
theorem le_of_mul_pow_le {a b e : Nat} (h : a * 10 ^ e ≤ b * 10 ^ e) : a ≤ b :=
  Nat.le_of_mul_le_mul_right h (Nat.pow_pos (by decide))

/-- Moving a power of ten from one side of a product to the exponent. -/
theorem mul_pow_mul_pow (a e f : Nat) : a * 10 ^ e * 10 ^ f = a * 10 ^ (e + f) := by
  rw [Nat.mul_assoc, ← Nat.pow_add]

/-- Rounding keeps the order of values. -/
theorem Rounds.le {v w x y : ℚ} (hx : Rounds v x) (hy : Rounds w y) (h : v ≤ w) : x ≤ y := by
  obtain ⟨n, s, d, rfl, hd, rfl⟩ := hx
  obtain ⟨n', s', d', rfl, hd', rfl⟩ := hy
  have hnat : n * 10 ^ s' ≤ n' * 10 ^ s := by
    rw [div_le_div_iff₀ (by positivity) (by positivity)] at h
    exact_mod_cast h
  obtain ⟨k, hk, hks, hm, hsc, hneg, hmin⟩ := fit?_spec hd
  obtain ⟨k', hk', hks', hm', hsc', hneg', hmin'⟩ := fit?_spec hd'
  have hdn : d.negative = false := by simpa using hneg
  have hdn' : d'.negative = false := by simpa using hneg'
  have hfit := d.mantissa_lt
  have hfit' := d'.mantissa_lt
  have hscale := d.scale_le
  have hscale' := d'.scale_le
  rw [hm] at hfit
  rw [hm'] at hfit'
  rw [hsc] at hscale
  rw [hsc'] at hscale'
  unfold maxScale at hscale hscale'
  apply value_le_of_mul_le hdn hdn'
  rw [hm, hm', hsc, hsc']
  rcases Nat.lt_trichotomy (s - k) (s' - k') with hlt | heq | hgt
  · rcases Nat.eq_zero_or_pos k with hk0 | hkpos
    · -- the smaller value was exact at its scale, which the larger one's scale refines
      subst hk0
      obtain ⟨e, he⟩ : ∃ e, s' - k' = s + e := ⟨s' - k' - s, by omega⟩
      have hle : n * 10 ^ e * 10 ^ k' ≤ n' * 10 ^ 0 := by
        have hs' : s' = e + (k' + s) := by omega
        apply le_of_mul_pow_le
        calc n * 10 ^ e * 10 ^ k' * 10 ^ s = n * 10 ^ s' := by
              rw [mul_pow_mul_pow, mul_pow_mul_pow, hs']
          _ ≤ n' * 10 ^ s := hnat
          _ = n' * 10 ^ 0 * 10 ^ s := by rw [Nat.pow_zero, Nat.mul_one]
      have hmono : n * 10 ^ e ≤ roundDiv n' k' := by simpa using roundDiv_mono hle
      calc roundDiv n 0 * 10 ^ (s' - k') = n * 10 ^ e * 10 ^ s := by
            rw [roundDiv_zero, he, mul_pow_mul_pow, Nat.add_comm]
        _ ≤ roundDiv n' k' * 10 ^ (s - 0) := Nat.mul_le_mul_right _ hmono
    · -- one digit finer the smaller value did not fit, so the larger one did not either
      have hj : s - maxScale ≤ k - 1 := by unfold maxScale; omega
      have hbig := hmin (k - 1) hj (by omega)
      have h1 : roundDiv n (k - 1) ≤ roundDiv n' (s' - (s - k + 1)) := by
        apply roundDiv_mono
        apply le_of_mul_pow_le
        calc n * 10 ^ (s' - (s - k + 1)) * 10 ^ (s - k + 1) = n * 10 ^ s' := by
              rw [mul_pow_mul_pow, Nat.sub_add_cancel (by omega)]
          _ ≤ n' * 10 ^ s := hnat
          _ = n' * 10 ^ (k - 1) * 10 ^ (s - k + 1) := by
              rw [mul_pow_mul_pow, show k - 1 + (s - k + 1) = s by omega]
      have h2 : roundDiv n' (s' - (s - k + 1)) ≤ roundDiv n' k' :=
        roundDiv_mono (Nat.mul_le_mul_left n' (Nat.pow_le_pow_right (by decide) (by omega)))
      omega
  · -- one scale: rounding there is monotone
    rw [heq]
    apply Nat.mul_le_mul_right
    apply roundDiv_mono
    apply le_of_mul_pow_le
    calc n * 10 ^ k' * 10 ^ (s' - k') = n * 10 ^ s' := by
          rw [mul_pow_mul_pow, Nat.add_sub_cancel' hks']
      _ ≤ n' * 10 ^ s := hnat
      _ = n' * 10 ^ k * 10 ^ (s' - k') := by
          rw [mul_pow_mul_pow, ← heq, Nat.add_sub_cancel' hks]
  · rcases Nat.eq_zero_or_pos k' with hk0 | hkpos
    · -- the larger value was exact at its scale, which the smaller one's scale refines
      subst hk0
      obtain ⟨e, he⟩ : ∃ e, s - k = s' + e := ⟨s - k - s', by omega⟩
      have hle : n * 10 ^ 0 ≤ n' * 10 ^ e * 10 ^ k := by
        have hs : s = e + (k + s') := by omega
        apply le_of_mul_pow_le
        calc n * 10 ^ 0 * 10 ^ s' = n * 10 ^ s' := by rw [Nat.pow_zero, Nat.mul_one]
          _ ≤ n' * 10 ^ s := hnat
          _ = n' * 10 ^ e * 10 ^ k * 10 ^ s' := by rw [mul_pow_mul_pow, mul_pow_mul_pow, ← hs]
      have hmono : roundDiv n k ≤ n' * 10 ^ e := by simpa using roundDiv_mono hle
      calc roundDiv n k * 10 ^ (s' - 0) ≤ n' * 10 ^ e * 10 ^ s' := Nat.mul_le_mul_right _ hmono
        _ = roundDiv n' 0 * 10 ^ (s - k) := by
            rw [roundDiv_zero, he, mul_pow_mul_pow, Nat.add_comm]
    · -- one digit finer the larger value did not fit, so it is past a tenth of the bound,
      -- which the smaller value is below at its finer scale
      have hj : s' - maxScale ≤ k' - 1 := by unfold maxScale; omega
      have hbig := roundDiv_succ_ge n' (k' - 1) (hmin' (k' - 1) hj (by omega))
      rw [show k' - 1 + 1 = k' by omega] at hbig
      calc roundDiv n k * 10 ^ (s' - k')
          ≤ mantissaBound * 10 ^ (s' - k') := Nat.mul_le_mul_right _ hfit.le
        _ ≤ 10 * roundDiv n' k' * 10 ^ (s' - k') := Nat.mul_le_mul_right _ hbig
        _ = roundDiv n' k' * 10 ^ (s' - k' + 1) := by rw [Nat.pow_succ]; ring
        _ ≤ roundDiv n' k' * 10 ^ (s - k) :=
          Nat.mul_le_mul_left _ (Nat.pow_le_pow_right (by decide) (by omega))

theorem Rounds.nonneg {v x : ℚ} (h : Rounds v x) : 0 ≤ x := by
  obtain ⟨n, s, d, -, hd, rfl⟩ := h
  exact fit?_nonneg hd

/-- A mantissa and scale in range are kept as they are. -/
theorem fit?_exact {n s : Nat} (hn : n < mantissaBound) (hs : s ≤ maxScale) :
    fit? false n s = some ⟨n, s, false, hn, hs⟩ := by
  have hleast : s - maxScale = 0 := by omega
  simp [fit?, shrinkDigits, hleast, List.range_succ_eq_map, hn, ofPartsPositiveZero?, ofParts?, hs]

/-- A decimal that is not negative is its own rounding. -/
theorem rounds_value {d : Decimal} (h : 0 ≤ d.value) : Rounds d.value d.value := by
  refine ⟨d.mantissa, d.scale, _, ?_, fit?_exact d.mantissa_lt d.scale_le, ?_⟩
  · rcases (value_nonneg_iff d).mp h with hneg | hzero
    · rw [value_of_not_negative hneg]
    · rw [value_of_mantissa_zero hzero, hzero]
      simp
  · rcases (value_nonneg_iff d).mp h with hneg | hzero
    · rw [value_of_not_negative hneg]
      rfl
    · rw [value_of_mantissa_zero hzero, value_of_not_negative rfl]
      simp [hzero]

/-- The mantissa of a decimal that is not negative, at a scale at least its own, over ten to
that scale, is its value. -/
theorem value_eq_aligned {d : Decimal} (hd : d.negative = false) {s : Nat} (hs : d.scale ≤ s) :
    d.value = ((d.mantissa * 10 ^ (s - d.scale) : Nat) : ℚ) / 10 ^ s := by
  rw [value_eq_signedAt d hs]
  simp [signedAt, signed, hd]

/-- A sum of values that are not negative is the rounding of the exact sum. -/
theorem add?_rounds {a b c : Decimal} (ha : 0 ≤ a.value) (hb : 0 ≤ b.value)
    (h : a.add? b = some c) : Rounds (a.value + b.value) c.value := by
  unfold add? combine at h
  split at h
  · -- a zero left operand gives the right one back
    rename_i ha0
    simp only [Bool.false_and, Bool.false_eq_true, if_false, Option.some.injEq] at h
    subst h
    rw [value_of_mantissa_zero ha0, zero_add]
    exact rounds_value hb
  · split at h
    · rename_i _ hb0
      cases h
      rw [value_of_mantissa_zero hb0, add_zero]
      exact rounds_value ha
    · rename_i ha0 hb0
      have han := negative_of_value_nonneg ha ha0
      have hbn := negative_of_value_nonneg hb hb0
      simp only [han, hbn, Bool.false_eq_true, if_false, beq_self_eq_true, if_true] at h
      refine ⟨_, _, c, ?_, h, rfl⟩
      rw [value_eq_aligned han (Nat.le_max_left a.scale b.scale),
        value_eq_aligned hbn (Nat.le_max_right a.scale b.scale), Nat.cast_add, add_div]

/-- A difference of values, the subtrahend not negative and at most the minuend, is the
rounding of the exact difference. -/
theorem sub?_rounds {a b c : Decimal} (hb : 0 ≤ b.value) (hba : b.value ≤ a.value)
    (h : a.sub? b = some c) : Rounds (a.value - b.value) c.value := by
  have ha := hb.trans hba
  unfold sub? combine at h
  split at h
  · -- from zero only a zero is taken
    rename_i ha0
    have hb0 : b.value = 0 := le_antisymm (value_of_mantissa_zero ha0 ▸ hba) hb
    have hbm : b.mantissa = 0 := by
      by_contra hne
      rw [value_eq] at hb0
      split at hb0 <;> simp [hne] at hb0
    simp only [hbm, bne_self_eq_false, Bool.true_and, Bool.false_eq_true, if_false,
      Option.some.injEq] at h
    subst h
    rw [value_of_mantissa_zero ha0, hb0, sub_zero]
    exact value_zero ▸ rounds_value (value_zero ▸ le_rfl)
  · split at h
    · rename_i _ hb0
      cases h
      rw [value_of_mantissa_zero hb0, sub_zero]
      exact rounds_value ha
    · rename_i ha0 hb0
      have han := negative_of_value_nonneg ha ha0
      have hbn := negative_of_value_nonneg hb hb0
      -- at the common scale the subtrahend's mantissa is at most the minuend's
      have hle : b.mantissa * 10 ^ (Nat.max a.scale b.scale - b.scale) ≤
          a.mantissa * 10 ^ (Nat.max a.scale b.scale - a.scale) := by
        have := hba
        rw [value_eq_aligned hbn (Nat.le_max_right a.scale b.scale),
          value_eq_aligned han (Nat.le_max_left a.scale b.scale),
          div_le_div_iff_of_pos_right (by positivity)] at this
        exact_mod_cast this
      simp only [han, hbn, Bool.not_false, if_true, beq_iff_eq, Bool.false_eq_true,
        if_false] at h
      rw [if_pos hle] at h
      refine ⟨_, _, c, ?_, h, rfl⟩
      rw [value_eq_aligned han (Nat.le_max_left a.scale b.scale),
        value_eq_aligned hbn (Nat.le_max_right a.scale b.scale), Nat.cast_sub hle, sub_div]

theorem add_rounds {a b c : Decimal} (ha : 0 ≤ a.value) (hb : 0 ≤ b.value)
    (h : a.add b = .ok c) : Rounds (a.value + b.value) c.value :=
  add?_rounds ha hb (orOverflow_eq_ok.mp h)

theorem sub_rounds {a b c : Decimal} (hb : 0 ≤ b.value) (hba : b.value ≤ a.value)
    (h : a.sub b = .ok c) : Rounds (a.value - b.value) c.value :=
  sub?_rounds hb hba (orOverflow_eq_ok.mp h)

/-- Taking off at most the whole of a value, and not less than nothing, leaves something
between nothing and the value. -/
theorem sub_bounds {a b c : Decimal} (hb : 0 ≤ b.value) (hba : b.value ≤ a.value)
    (h : a.sub b = .ok c) : 0 ≤ c.value ∧ c.value ≤ a.value := by
  have hr := sub_rounds hb hba h
  exact ⟨hr.nonneg, hr.le (rounds_value (hb.trans hba)) (by linarith)⟩

/-- Adding one amount to two values keeps their order. -/
theorem add_le_add_of_le {a a' b c c' : Decimal} (ha : 0 ≤ a.value) (haa : a.value ≤ a'.value)
    (hb : 0 ≤ b.value) (h : a.add b = .ok c) (h' : a'.add b = .ok c') : c.value ≤ c'.value :=
  (add_rounds ha hb h).le (add_rounds (ha.trans haa) hb h') (by linarith)

end Decimal

end PoolTreasury
