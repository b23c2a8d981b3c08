import PoolTreasury.Proofs.Decimal.Monotone
import PoolTreasury.Ledger.Accounting

/-! # When a decimal result stays in range

`fit?` drops the fewest digits that bring a mantissa below `2^96`, and it may drop them all
but the whole part. So it answers exactly when the value rounded to a whole number is below
`2^96` (`fit?_isSome_iff`). Rounding is monotone, so a value that is at most one that fits
fits too (`fit?_isSome_of_mul_le`).

From this: a sum of values that are not negative is computed whenever a larger such sum is
(`add?_isSome_of_le`), and so is every sum over part of a list whose whole sum is computed
(`foldlM_add_sublist`). A difference of two values that are not negative is always computed
(`sub?_isSome`), and so is a tenth of any decimal (`mul?_capacityRatio_isSome`).
-/

namespace PoolTreasury

namespace Decimal

/-! ## Fitting a mantissa -/

/-- Dropping every digit after the point is among the tries, and the first try that fits
is kept. -/
theorem shrinkDigits_isSome {n scale least : Nat} (hleast : least ≤ scale)
    (h : roundDiv n scale < mantissaBound) : (shrinkDigits n scale least).isSome := by
  unfold shrinkDigits
  rw [List.findSome?_isSome_iff]
  refine ⟨scale, List.mem_map.2 ⟨scale - least, List.mem_range.2 (by omega), by omega⟩, ?_⟩
  simp [h]

/-- `fit?` answers exactly when the value rounded to a whole number is below `2^96`. -/
theorem fit?_isSome_iff {neg : Bool} {n scale : Nat} :
    (fit? neg n scale).isSome ↔ roundDiv n scale < mantissaBound := by
  constructor
  · intro h
    obtain ⟨d, hd⟩ := Option.isSome_iff_exists.1 h
    obtain ⟨k, -, hks, hm, -, -, -⟩ := fit?_spec hd
    -- dropping more digits never gives a larger quotient
    have hle : roundDiv n scale ≤ roundDiv n k :=
      roundDiv_mono (Nat.mul_le_mul_left n (Nat.pow_le_pow_right (by decide) hks))
    exact Nat.lt_of_le_of_lt hle (hm ▸ d.mantissa_lt)
  · intro h
    obtain ⟨⟨m, s⟩, hshrink⟩ :=
      Option.isSome_iff_exists.1 (shrinkDigits_isSome (Nat.sub_le scale maxScale) h)
    obtain ⟨k, hk, -, -, hm, hs, -⟩ := shrinkDigits_spec hshrink
    have hscale : s ≤ maxScale := by omega
    unfold fit?
    simp [hshrink, ofPartsPositiveZero?, ofParts?, hm, hscale]

/-- A value at most one that fits fits too. -/
theorem fit?_isSome_of_mul_le {neg neg' : Bool} {n s n' s' : Nat} (hle : n * 10 ^ s' ≤ n' * 10 ^ s)
    (h : (fit? neg' n' s').isSome) : (fit? neg n s).isSome := by
  rw [fit?_isSome_iff] at h ⊢
  exact Nat.lt_of_le_of_lt (roundDiv_mono hle) h

theorem fit?_isSome_of_le {neg neg' : Bool} {n s n' s' : Nat}
    (hle : (n : ℚ) / 10 ^ s ≤ n' / 10 ^ s') (h : (fit? neg' n' s').isSome) :
    (fit? neg n s).isSome := by
  refine fit?_isSome_of_mul_le ?_ h
  rw [div_le_div_iff₀ (by positivity) (by positivity)] at hle
  exact_mod_cast hle

/-! ## Sums, differences and the tenth -/

/-- A sum of values that are not negative is computed when a larger such sum is. -/
theorem add?_isSome_of_le {a a' b c' : Decimal} (ha : 0 ≤ a.value) (haa : a.value ≤ a'.value)
    (hb : 0 ≤ b.value) (h : a'.add? b = some c') : (a.add? b).isSome := by
  -- the larger sum is the rounding of some exact writing `n' / 10^s'` of its value
  obtain ⟨n', s', d', hv, hfit, -⟩ := add?_rounds (ha.trans haa) hb h
  unfold add? combine
  split
  · rfl
  · split
    · rfl
    · rename_i ha0 hb0
      have han := negative_of_value_nonneg ha ha0
      have hbn := negative_of_value_nonneg hb hb0
      simp only [han, hbn, Bool.false_eq_true, if_false, beq_self_eq_true, if_true]
      refine fit?_isSome_of_le ?_ (Option.isSome_iff_exists.2 ⟨d', hfit⟩)
      calc ((a.mantissa * 10 ^ (Nat.max a.scale b.scale - a.scale) +
              b.mantissa * 10 ^ (Nat.max a.scale b.scale - b.scale) : Nat) : ℚ) /
              10 ^ Nat.max a.scale b.scale
          = a.value + b.value := by
            rw [value_eq_aligned han (Nat.le_max_left a.scale b.scale),
              value_eq_aligned hbn (Nat.le_max_right a.scale b.scale), Nat.cast_add, add_div]
        _ ≤ a'.value + b.value := by linarith
        _ = n' / 10 ^ s' := hv.symm

/-- A decimal's own mantissa and scale fit. -/
theorem fit?_isSome_self (d : Decimal) : (fit? false d.mantissa d.scale).isSome :=
  Option.isSome_iff_exists.2 ⟨_, fit?_exact d.mantissa_lt d.scale_le⟩

/-- A mantissa at most a decimal's own, brought to a scale at least its own, fits. -/
theorem fit?_isSome_of_aligned_le {neg : Bool} (d : Decimal) {m s : Nat}
    (hs : d.scale ≤ s) (hm : m ≤ d.mantissa * 10 ^ (s - d.scale)) : (fit? neg m s).isSome := by
  refine fit?_isSome_of_mul_le ?_ (fit?_isSome_self d)
  calc m * 10 ^ d.scale ≤ d.mantissa * 10 ^ (s - d.scale) * 10 ^ d.scale :=
        Nat.mul_le_mul_right _ hm
    _ = d.mantissa * 10 ^ s := by rw [mul_pow_mul_pow, Nat.sub_add_cancel hs]

/-- A difference of two values that are not negative is always computed: it lies between the
negated subtrahend and the minuend. -/
theorem sub?_isSome {a b : Decimal} (ha : 0 ≤ a.value) (hb : 0 ≤ b.value) :
    (a.sub? b).isSome := by
  unfold sub? combine
  split
  · rfl
  · split
    · rfl
    · rename_i ha0 hb0
      have han := negative_of_value_nonneg ha ha0
      have hbn := negative_of_value_nonneg hb hb0
      simp only [han, hbn, Bool.not_false, if_true, beq_iff_eq, Bool.false_eq_true, if_false]
      -- the difference is at most the larger operand, at the common scale
      split
      · exact fit?_isSome_of_aligned_le a (Nat.le_max_left _ _) (Nat.sub_le _ _)
      · exact fit?_isSome_of_aligned_le b (Nat.le_max_right _ _) (Nat.sub_le _ _)

/-- A tenth of any decimal is computed: the product has one more place, and at worst that
place is rounded off. -/
theorem mul?_capacityRatio_isSome (d : Decimal) : (d.mul? capacityRatio).isSome := by
  unfold mul?
  split
  · rfl
  · dsimp only
    split
    · rfl
    · refine fit?_isSome_of_mul_le ?_ (fit?_isSome_self d)
      -- the mantissa is kept and the scale grows by one
      rw [show capacityRatio.mantissa = 1 from rfl, Nat.mul_one]
      exact Nat.mul_le_mul_left _ (Nat.pow_le_pow_right (by decide) (Nat.le_add_right _ _))

/-! ## Sums over lists -/

/-- A sum over part of a list of values that are not negative is computed whenever the sum
over the whole list is, from a start at most the whole list's; and it is at most that sum. -/
theorem foldlM_add_sublist {l₁ l₂ : List Decimal} (hsub : l₁.Sublist l₂)
    (hl : ∀ x ∈ l₂, 0 ≤ x.value) {a b y : Decimal} (ha : 0 ≤ a.value) (hab : a.value ≤ b.value)
    (hy : l₂.foldlM Decimal.add b = .ok y) :
    ∃ x, l₁.foldlM Decimal.add a = .ok x ∧ x.value ≤ y.value := by
  induction hsub generalizing a b with
  | slnil =>
    cases hy
    exact ⟨a, rfl, hab⟩
  | @cons l₁ l₂ z _ ih =>
    -- `z` is left out: the whole sum only grows past it
    rw [List.foldlM_cons] at hy
    obtain ⟨b', hb', hy'⟩ := bind_eq_ok_iff.1 hy
    have hz := hl z List.mem_cons_self
    exact ih (fun x hx => hl x (List.mem_cons_of_mem z hx)) ha
      (hab.trans (add_ge (ha.trans hab) hz hb').1) hy'
  | @cons_cons l₁ l₂ z _ ih =>
    -- `z` is in both: the smaller start stays the smaller sum
    rw [List.foldlM_cons] at hy ⊢
    obtain ⟨b', hb', hy'⟩ := bind_eq_ok_iff.1 hy
    have hz := hl z List.mem_cons_self
    obtain ⟨a', ha'⟩ := Option.isSome_iff_exists.1
      (add?_isSome_of_le ha hab hz (orOverflow_eq_ok.mp hb'))
    have ha'ok : a.add z = .ok a' := orOverflow_eq_ok.mpr ha'
    obtain ⟨x, hx, hxy⟩ := ih (fun x hx => hl x (List.mem_cons_of_mem z hx))
      (ha.trans (add_ge ha hz ha'ok).1) (add_le_add_of_le ha hab hz ha'ok hb') hy'
    exact ⟨x, bind_eq_ok_iff.2 ⟨a', ha'ok, hx⟩, hxy⟩

/-- A sum of values that are not negative, from a start that is not, is not negative. -/
theorem foldlM_add_nonneg {l : List Decimal} (hl : ∀ x ∈ l, 0 ≤ x.value) {a y : Decimal}
    (ha : 0 ≤ a.value) (hy : l.foldlM Decimal.add a = .ok y) : 0 ≤ y.value := by
  obtain ⟨x, hx, hxy⟩ := foldlM_add_sublist (List.nil_sublist l) hl ha le_rfl hy
  cases hx
  exact ha.trans hxy

end Decimal

end PoolTreasury
