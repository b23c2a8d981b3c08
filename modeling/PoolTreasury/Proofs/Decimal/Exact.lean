import Mathlib.Data.Rat.Floor
import PoolTreasury.Proofs.Decimal.Range

/-! # Exact decimal arithmetic

Decimal operations round only what they cannot keep. A value that some decimal holds is its
own rounding (`Rounds.eq_of_representable`), so when the exact sum, difference or product of
two decimals is itself the value of a decimal, the operation returns a decimal of exactly that
value (`add?_exact`, `sub?_exact`, `mul?_exact`), whichever digits and scale it picks. Rounding
up to a whole number is exact in the same sense (`ceil_exact`).

The sign of a result is kept apart from its magnitude: `fit?` brings the magnitude into range
and only then puts the sign on (`fit?_value`), so each statement is proved on magnitudes.
-/

namespace PoolTreasury

namespace Decimal

/-! ## Values that a decimal holds -/

/-- `v` is the value of some decimal: it has at most 28 places, and its digits stay below
`2^96`. -/
def Representable (v : ℚ) : Prop := ∃ d : Decimal, d.value = v

theorem representable_value (d : Decimal) : Representable d.value := ⟨d, rfl⟩

@[simp] theorem value_neg (d : Decimal) : d.neg.value = -d.value := by
  cases d with
  | mk m s negative _ _ => cases negative <;> simp [value, signed, neg, neg_div]

theorem Representable.neg {v : ℚ} (h : Representable v) : Representable (-v) := by
  obtain ⟨d, rfl⟩ := h
  exact ⟨d.neg, value_neg d⟩

/-- The size of a value is its mantissa over ten to its scale. -/
theorem abs_value (d : Decimal) : |d.value| = (d.mantissa : ℚ) / 10 ^ d.scale := by
  rw [value_eq]
  split <;> simp [abs_div, neg_div]

theorem value_le_magnitude (d : Decimal) : d.value ≤ (d.mantissa : ℚ) / 10 ^ d.scale :=
  abs_value d ▸ le_abs_self d.value

/-- A decimal built from a mantissa and a scale, with no sign. -/
theorem value_mk {m s : Nat} (hm : m < mantissaBound) (hs : s ≤ maxScale) :
    (⟨m, s, false, hm, hs⟩ : Decimal).value = (m : ℚ) / 10 ^ s :=
  value_of_not_negative rfl

theorem value_ofNat {n : Nat} (h : n < mantissaBound) : (ofNat n).value = n := by
  simp [ofNat, h, value, signed]

theorem value_pos_of_nonneg {d : Decimal} (hd : 0 ≤ d.value) (hm : d.mantissa ≠ 0) :
    0 < d.value := by
  rw [value_of_not_negative (negative_of_value_nonneg hd hm)]
  have : (0 : ℚ) < d.mantissa := by exact_mod_cast Nat.pos_of_ne_zero hm
  positivity

/-- A rounding of a value that some decimal holds is that value. -/
theorem Rounds.eq_of_representable {v x : ℚ} (h : Rounds v x) (hv : 0 ≤ v)
    (hr : Representable v) : x = v := by
  obtain ⟨d, rfl⟩ := hr
  have hd := rounds_value hv
  exact le_antisymm (h.le hd le_rfl) (hd.le h le_rfl)

/-! ## Bringing an exact result into range -/

/-- An exact writing of a value that some decimal holds is brought into range. -/
theorem fit?_isSome_of_value {neg : Bool} {n s : Nat} {d : Decimal}
    (h : (n : ℚ) / 10 ^ s = d.value) : (fit? neg n s).isSome :=
  fit?_isSome_of_le (h.trans_le (value_le_magnitude d)) (fit?_isSome_self d)

/-- `fit?` keeps an exact writing of a value that some decimal holds. -/
theorem fit?_eq_of_value {n s : Nat} {d : Decimal} (h : (n : ℚ) / 10 ^ s = d.value) :
    ∃ c, fit? false n s = some c ∧ c.value = d.value := by
  obtain ⟨c, hc⟩ := Option.isSome_iff_exists.mp (fit?_isSome_of_value h : (fit? false n s).isSome)
  have hv : 0 ≤ d.value := h ▸ by positivity
  exact ⟨c, hc, Rounds.eq_of_representable ⟨n, s, c, h, hc, rfl⟩ hv (representable_value d)⟩

/-- `fit?` rounds the magnitude and puts the sign on afterwards. -/
theorem fit?_value (neg : Bool) (n s : Nat) :
    (fit? neg n s).map value =
      (fit? false n s).map fun d => if neg then -d.value else d.value := by
  unfold fit?
  cases shrinkDigits n s (s - maxScale) with
  | none => rfl
  | some ms =>
    obtain ⟨m, s'⟩ := ms
    by_cases hm : m < mantissaBound <;> by_cases hs : s' ≤ maxScale <;>
      simp [ofPartsPositiveZero?, ofParts?, hm, hs]
    cases neg <;> by_cases hm0 : m = 0 <;> simp [value_eq, hm0, neg_div]

/-- A signed exact writing of a value that some decimal holds is kept. -/
theorem fit?_eq_of_signed_value {neg : Bool} {n s : Nat} {d : Decimal}
    (h : (if neg then -(n : ℚ) else n) / 10 ^ s = d.value) :
    ∃ c, fit? neg n s = some c ∧ c.value = d.value := by
  cases neg with
  | false => exact fit?_eq_of_value (by simpa using h)
  | true =>
    -- the magnitude is the value of the negated decimal
    have hmag : (n : ℚ) / 10 ^ s = d.neg.value := by
      rw [value_neg, ← h]
      simp [neg_div]
    obtain ⟨c, hc, hcv⟩ := fit?_eq_of_value hmag
    have hsign := fit?_value true n s
    rw [hc] at hsign
    obtain ⟨c', hc', hv'⟩ := Option.map_eq_some_iff.mp hsign
    exact ⟨c', hc', by simp [hv', hcv]⟩

/-! ## Sums and differences -/

section Sums

variable {a b d : Decimal}

/-- A sum of values that are not negative is exact when some decimal holds it. -/
theorem add?_exact (ha : 0 ≤ a.value) (hb : 0 ≤ b.value) (h : a.value + b.value = d.value) :
    ∃ c, a.add? b = some c ∧ c.value = d.value := by
  unfold add? combine
  split
  · -- a zero left operand gives the right one back
    rename_i ha0
    refine ⟨b, by simp, ?_⟩
    rw [← h, value_of_mantissa_zero ha0, zero_add]
  · split
    · rename_i _ hb0
      refine ⟨a, rfl, ?_⟩
      rw [← h, value_of_mantissa_zero hb0, add_zero]
    · rename_i ha0 hb0
      have han := negative_of_value_nonneg ha ha0
      have hbn := negative_of_value_nonneg hb hb0
      simp only [han, hbn, Bool.false_eq_true, if_false, beq_self_eq_true, if_true]
      refine fit?_eq_of_value ?_
      rw [← h, value_eq_aligned han (Nat.le_max_left a.scale b.scale),
        value_eq_aligned hbn (Nat.le_max_right a.scale b.scale), Nat.cast_add, add_div]

/-- A difference of values that are not negative, in either order, is exact when some decimal
holds it. -/
theorem sub?_exact (ha : 0 ≤ a.value) (hb : 0 ≤ b.value) (h : a.value - b.value = d.value) :
    ∃ c, a.sub? b = some c ∧ c.value = d.value := by
  unfold sub? combine
  split
  · -- from zero: the subtrahend negated, unless it is a zero
    rename_i ha0
    by_cases hb0 : b.mantissa = 0
    · refine ⟨b, by simp [hb0], ?_⟩
      rw [← h, value_of_mantissa_zero ha0, value_of_mantissa_zero hb0, sub_zero]
    · refine ⟨b.neg, by simp [hb0], ?_⟩
      rw [← h, value_neg, value_of_mantissa_zero ha0, zero_sub]
  · split
    · rename_i _ hb0
      refine ⟨a, rfl, ?_⟩
      rw [← h, value_of_mantissa_zero hb0, sub_zero]
    · rename_i ha0 hb0
      have han := negative_of_value_nonneg ha ha0
      have hbn := negative_of_value_nonneg hb hb0
      simp only [han, hbn, Bool.not_false, if_true, beq_iff_eq, Bool.false_eq_true, if_false]
      have hvalue : a.value - b.value =
          ((a.mantissa * 10 ^ (Nat.max a.scale b.scale - a.scale) : Nat) -
            (b.mantissa * 10 ^ (Nat.max a.scale b.scale - b.scale) : Nat) : ℚ) /
            10 ^ Nat.max a.scale b.scale := by
        rw [value_eq_aligned han (Nat.le_max_left a.scale b.scale),
          value_eq_aligned hbn (Nat.le_max_right a.scale b.scale), sub_div]
      split
      · -- the minuend is the larger: its sign stays
        rename_i hle
        refine fit?_eq_of_value ?_
        rw [← h, hvalue, Nat.cast_sub hle]
      · -- the subtrahend is the larger: the difference is negative
        rename_i hlt
        refine fit?_eq_of_signed_value ?_
        rw [← h, hvalue, if_pos rfl, Nat.cast_sub (Nat.le_of_lt (Nat.lt_of_not_le hlt)),
          neg_sub]

end Sums

/-! ## Products -/

/-- The product of two values, as the product of the mantissas at the sum of the scales with
the sign the two signs give. -/
theorem value_mul_value (a b : Decimal) :
    a.value * b.value =
      (if a.negative != b.negative then -((a.mantissa * b.mantissa : Nat) : ℚ)
        else (a.mantissa * b.mantissa : Nat)) / 10 ^ (a.scale + b.scale) := by
  rw [value_eq, value_eq, pow_add]
  cases a.negative <;> cases b.negative <;> simp <;> field_simp

/-- No decimal holds a nonzero product of two mantissas below `2^32` at more than 47 places:
it lies below `10^-28`. -/
theorem not_representable_short {a b d : Decimal} (ha : a.mantissa < word) (hb : b.mantissa < word)
    (hs : a.scale + b.scale > maxScale + 19) (ha0 : a.mantissa ≠ 0) (hb0 : b.mantissa ≠ 0)
    (h : a.value * b.value = d.value) : False := by
  -- compare the sizes as whole numbers: `p · 10^d.scale = d.mantissa · 10^(a.scale + b.scale)`
  have habs := congrArg abs h
  rw [abs_mul, abs_value, abs_value, abs_value, div_mul_div_comm, ← pow_add,
    div_eq_div_iff (by positivity) (by positivity)] at habs
  have hnat : a.mantissa * b.mantissa * 10 ^ d.scale = d.mantissa * 10 ^ (a.scale + b.scale) := by
    exact_mod_cast habs
  have hp : a.mantissa * b.mantissa < 2 ^ 64 := by
    have := Nat.mul_lt_mul'' ha hb
    simpa [word] using this
  have hd0 : d.mantissa ≠ 0 := by
    rintro hd
    rw [hd, Nat.zero_mul] at hnat
    exact Nat.mul_ne_zero (Nat.mul_ne_zero ha0 hb0) (by positivity) hnat
  have hleft : a.mantissa * b.mantissa * 10 ^ d.scale < 2 ^ 64 * 10 ^ 28 :=
    Nat.mul_lt_mul_of_lt_of_le hp (Nat.pow_le_pow_right (by decide) d.scale_le) (by positivity)
  have hright : 10 ^ 48 ≤ d.mantissa * 10 ^ (a.scale + b.scale) :=
    calc 10 ^ 48 ≤ 10 ^ (a.scale + b.scale) := Nat.pow_le_pow_right (by decide) (by
            unfold maxScale at hs; omega)
      _ ≤ d.mantissa * 10 ^ (a.scale + b.scale) := Nat.le_mul_of_pos_left _ (Nat.pos_of_ne_zero hd0)
  have hgap : 2 ^ 64 * 10 ^ 28 < 10 ^ 48 := by decide
  omega

/-- A product is exact when some decimal holds it, whatever the signs. -/
theorem mul?_exact {a b d : Decimal} (h : a.value * b.value = d.value) :
    ∃ c, a.mul? b = some c ∧ c.value = d.value := by
  unfold mul?
  split
  · -- a zero operand gives the plain zero
    rename_i hz
    refine ⟨zero, rfl, ?_⟩
    rw [value_zero, ← h]
    simp only [Bool.or_eq_true, decide_eq_true_eq] at hz
    rcases hz with h0 | h0 <;> simp [value_of_mantissa_zero h0]
  · rename_i hz
    simp only [Bool.or_eq_true, decide_eq_true_eq, not_or] at hz
    dsimp only
    split
    · rename_i hshort
      simp only [Bool.and_eq_true, decide_eq_true_eq] at hshort
      exact (not_representable_short hshort.1.1 hshort.1.2 hshort.2 hz.1 hz.2 h).elim
    · exact fit?_eq_of_signed_value (h ▸ (value_mul_value a b).symm)

/-- So the checked product reports no overflow. -/
theorem mul_exact {a b d : Decimal} (h : a.value * b.value = d.value) :
    ∃ c, a.mul b = .ok c ∧ c.value = d.value := by
  obtain ⟨c, hc, hcv⟩ := mul?_exact h
  exact ⟨c, orOverflow_eq_ok.mpr hc, hcv⟩

/-! ## Rounding up -/

/-- The truncation of a value that is not negative is its whole part. -/
theorem value_trunc {d : Decimal} (hneg : d.negative = false) :
    d.trunc.value = ((d.mantissa / 10 ^ d.scale : Nat) : ℚ) := by
  simp only [value, signed, trunc, hneg, Bool.false_eq_true, if_false, pow_zero, div_one,
    Int.cast_natCast]

/-- A value that is not negative is its whole part and its fraction. -/
theorem value_eq_whole_add_fraction {d : Decimal} (hneg : d.negative = false) :
    d.value = ((d.mantissa / 10 ^ d.scale : Nat) : ℚ) +
      ((d.mantissa % 10 ^ d.scale : Nat) : ℚ) / 10 ^ d.scale := by
  rw [value_of_not_negative hneg]
  field_simp
  exact_mod_cast (Nat.div_add_mod d.mantissa (10 ^ d.scale)).symm.trans (by ring)

/-- Rounding up a value that is not negative gives the least whole number at or above it. -/
theorem ceil_exact {d : Decimal} (hd : 0 ≤ d.value) :
    ∃ c, d.ceil = .ok c ∧ c.value = ⌈d.value⌉ := by
  unfold ceil
  split
  · -- a whole number already
    rename_i hs
    refine ⟨d, rfl, ?_⟩
    have hv : d.value = (d.signed : ℚ) := by simp [value, hs]
    rw [hv, Int.ceil_intCast]
  · rename_i hs
    split
    · -- a positive value with a fraction: the truncation and one more
      rename_i hfrac
      simp only [Bool.and_eq_true, Bool.not_eq_eq_eq_not, Bool.not_true, hasFraction,
        bne_iff_ne, ne_eq] at hfrac
      obtain ⟨hneg, hr⟩ := hfrac
      -- the truncation is below `2^96 / 10`, so one more still fits
      have hq : d.mantissa / 10 ^ d.scale + 1 < mantissaBound := by
        have h10 : d.mantissa / 10 ^ d.scale ≤ d.mantissa / 10 :=
          Nat.div_le_div_left (Nat.le_self_pow hs 10) (by decide)
        have := d.mantissa_lt
        unfold mantissaBound at this ⊢
        omega
      let up : Decimal := ⟨d.mantissa / 10 ^ d.scale + 1, 0, false, hq, Nat.zero_le _⟩
      have hup : up.value = ((d.mantissa / 10 ^ d.scale : Nat) : ℚ) + 1 := by
        simp only [up, value, signed, Bool.false_eq_true, if_false, pow_zero, div_one,
          Nat.cast_add, Nat.cast_one, Int.cast_add, Int.cast_natCast, Int.cast_one]
      obtain ⟨c, hc, hcv⟩ := add?_exact (a := d.trunc) (b := one) (d := up)
        (by rw [value_trunc hneg]; positivity) (by simp) (by rw [value_trunc hneg, value_one, hup])
      refine ⟨c, orOverflow_eq_ok.mpr hc, ?_⟩
      -- the value lies strictly between the truncation and one more
      have hlt : ((d.mantissa % 10 ^ d.scale : Nat) : ℚ) / 10 ^ d.scale < 1 := by
        rw [div_lt_one (by positivity)]
        exact_mod_cast Nat.mod_lt _ (Nat.pow_pos (by decide))
      have hgt : 0 < ((d.mantissa % 10 ^ d.scale : Nat) : ℚ) / 10 ^ d.scale := by
        have : 0 < d.mantissa % 10 ^ d.scale := Nat.pos_of_ne_zero hr
        positivity
      have hceil : ⌈d.value⌉ = ((d.mantissa / 10 ^ d.scale : Nat) : ℤ) + 1 := by
        rw [Int.ceil_eq_iff, value_eq_whole_add_fraction hneg]
        simp only [Int.cast_add, Int.cast_natCast, Int.cast_one]
        constructor <;> linarith
      rw [hcv, hup, hceil]
      simp only [Int.cast_add, Int.cast_natCast, Int.cast_one]
    · -- no fraction, or a zero with a minus sign: the truncation
      rename_i hfrac
      refine ⟨d.trunc, rfl, ?_⟩
      rcases (value_nonneg_iff d).mp hd with hneg | hm0
      · have hr : d.mantissa % 10 ^ d.scale = 0 := by
          simpa [hasFraction, hneg] using hfrac
        rw [value_trunc hneg, value_eq_whole_add_fraction hneg, hr, Nat.cast_zero, zero_div,
          add_zero, Int.ceil_natCast, Int.cast_natCast]
      · rw [value_of_mantissa_zero hm0]
        simp [value, signed, trunc, hm0]

end Decimal

end PoolTreasury
