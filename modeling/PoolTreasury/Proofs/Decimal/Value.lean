import Mathlib.Algebra.Order.Field.Rat
import Mathlib.Tactic.FieldSimp
import Mathlib.Tactic.Positivity
import Mathlib.Tactic.Ring
import PoolTreasury.Decimal.Arith

/-! # The value of a decimal

A decimal stands for the rational `±mantissa / 10^scale`, and its order is the order of
these values: comparing at the common scale multiplies both sides by the same power of ten.
Facts about the order of decimals are therefore proved on rationals.

Rounding never loses sight of a decimal that the exact result already exceeds: `fit?`
drops as few digits as it must, and the only way the rounded result can fall below such a
decimal is by dropping a digit that decimal has, which happens only when even one digit
fewer would leave the mantissa past `2^96`. A sum of two values that are not negative is
thus at least each of them.
-/

namespace PoolTreasury

section CheckedSteps

variable {ε α β : Type}

@[simp] theorem Except.ok_bind (a : α) (f : α → Except ε β) : (Except.ok a >>= f) = f a := rfl

@[simp] theorem Except.error_bind (e : ε) (f : α → Except ε β) : (Except.error e >>= f) = .error e :=
  rfl

@[simp] theorem Except.map_ok (f : α → β) (a : α) : (f <$> Except.ok a : Except ε β) = .ok (f a) :=
  rfl

end CheckedSteps

/-- A checked computation succeeds when both its stages do. -/
theorem bind_eq_ok_iff {ε α β : Type} {x : Except ε α} {f : α → Except ε β} {b : β} :
    x >>= f = .ok b ↔ ∃ a, x = .ok a ∧ f a = .ok b := by
  cases x with
  | error e => simp [bind, Except.bind]
  | ok a => simp [bind, Except.bind]

/-! ## Rounding on whole numbers -/

/-- Rounding to the nearest never goes below truncating. -/
theorem div_le_roundDiv (n k : Nat) : n / 10 ^ k ≤ roundDiv n k := by
  rcases roundDiv_cases n k with h | h <;> omega

/-- When `j` dropped digits still leave the rounded quotient at or past `2^96`, one digit more
leaves it at or past a tenth of `2^96`: the quotient before is at least `2^96 − ½`, so the
one after is at least `7922816251426433759354395033.55`, which rounds up. -/
theorem roundDiv_succ_ge (n j : Nat) (h : mantissaBound ≤ roundDiv n j) :
    mantissaBound ≤ 10 * roundDiv n (j + 1) := by
  have hp : 0 < 10 ^ j := Nat.pow_pos (by decide)
  -- the quotient and remainder one digit further, in terms of the ones at `j`
  have hpow : 10 ^ (j + 1) = 10 ^ j * 10 := Nat.pow_succ 10 j
  have hq : n / 10 ^ (j + 1) = n / 10 ^ j / 10 := by
    rw [hpow, Nat.div_div_eq_div_mul]
  have hr : n % 10 ^ (j + 1) = n % 10 ^ j + 10 ^ j * (n / 10 ^ j % 10) := by
    rw [hpow, Nat.mod_mul]
  have hbound := Nat.mod_lt n hp
  simp only [roundDiv, mantissaBound] at h ⊢
  rw [hq, hr, hpow]
  clear hq hr hpow
  generalize n / 10 ^ j = q at *
  generalize n % 10 ^ j = r at *
  generalize 10 ^ j = p at *
  by_cases hfar : 79228162514264337593543950340 ≤ q
  · -- far past the bound, truncating already suffices
    split_ifs <;> omega
  · -- just past it, the last digit of `q` is at least 5, and at 5 the remainder is not zero
    have hdigit : p * 5 ≤ p * (q % 10) :=
      Nat.mul_le_mul_left p (by split_ifs at h <;> omega)
    split_ifs at h ⊢ <;> omega

/-! ## Finding the fewest digits to drop -/

/-- The first position of a range where `f` answers, and `f` answers nowhere before it. -/
theorem findSome?_range'_eq_some {β : Type} {f : Nat → Option β} {b : β} :
    ∀ {a n : Nat}, (List.range' a n).findSome? f = some b →
      ∃ k, a ≤ k ∧ k < a + n ∧ f k = some b ∧ ∀ j, a ≤ j → j < k → f j = none
  | _, 0, h => by simp at h
  | a, n + 1, h => by
    rw [List.range'_succ, List.findSome?_cons] at h
    cases hfa : f a with
    | some b' =>
      rw [hfa] at h
      exact ⟨a, Nat.le_refl a, by omega, hfa.trans h, fun j hj hjk => absurd hjk (by omega)⟩
    | none =>
      rw [hfa] at h
      obtain ⟨k, hk, hkn, hfk, hbefore⟩ := findSome?_range'_eq_some h
      refine ⟨k, by omega, by omega, hfk, fun j hj hjk => ?_⟩
      rcases Nat.eq_or_lt_of_le hj with rfl | hj
      · exact hfa
      · exact hbefore j hj hjk

/-- What `shrinkDigits` answers: the quotient after the fewest dropped digits, from `least`
on, that brings it below `2^96`. -/
theorem shrinkDigits_spec {n scale least m s : Nat} (h : shrinkDigits n scale least = some (m, s)) :
    ∃ k, least ≤ k ∧ k ≤ scale ∧ m = roundDiv n k ∧ m < mantissaBound ∧ s = scale - k ∧
      ∀ j, least ≤ j → j < k → mantissaBound ≤ roundDiv n j := by
  unfold shrinkDigits at h
  have hr : (List.range (scale + 1 - least)).map (· + least) =
      List.range' least (scale + 1 - least) := by
    rw [List.range_eq_range', show (fun x => x + least) = (fun x => least + x) from
      funext fun x => Nat.add_comm x least, List.map_add_range', Nat.add_zero]
  rw [hr] at h
  obtain ⟨k, hk, hkn, hfk, hbefore⟩ := findSome?_range'_eq_some h
  have hfit : roundDiv n k < mantissaBound := by
    by_contra hno
    simp [hno] at hfk
  simp only [hfit, if_true, Option.some.injEq, Prod.mk.injEq] at hfk
  refine ⟨k, hk, by omega, hfk.1.symm, hfk.1 ▸ hfit, hfk.2.symm, fun j hj hjk => ?_⟩
  have hfj := hbefore j hj hjk
  by_contra hlt
  simp [Nat.lt_of_not_le hlt] at hfj

namespace Decimal

theorem ofParts?_spec {m s : Nat} {neg : Bool} {d : Decimal} (h : ofParts? m s neg = some d) :
    d.mantissa = m ∧ d.scale = s ∧ d.negative = neg := by
  unfold ofParts? at h
  split_ifs at h
  cases h
  exact ⟨rfl, rfl, rfl⟩

/-- What `fit?` answers: the digits it drops are the fewest that fit, and at least those past
scale 28; a zero result is never negative. -/
theorem fit?_spec {neg : Bool} {n scale : Nat} {d : Decimal} (h : fit? neg n scale = some d) :
    ∃ k, scale - maxScale ≤ k ∧ k ≤ scale ∧ d.mantissa = roundDiv n k ∧ d.scale = scale - k ∧
      d.negative = (neg && roundDiv n k != 0) ∧
      ∀ j, scale - maxScale ≤ j → j < k → mantissaBound ≤ roundDiv n j := by
  unfold fit? at h
  simp only [Option.bind_eq_bind, Option.bind_eq_some_iff] at h
  obtain ⟨⟨m, s⟩, hshrink, hparts⟩ := h
  obtain ⟨k, hk, hks, hm, -, hs, hmin⟩ := shrinkDigits_spec hshrink
  obtain ⟨hdm, hds, hdn⟩ := ofParts?_spec hparts
  exact ⟨k, hk, hks, hdm.trans hm, hds.trans hs, hm ▸ hdn, hmin⟩

/-! ## Value and order -/

/-- The rational a decimal stands for. -/
def value (d : Decimal) : ℚ := d.signed / 10 ^ d.scale

theorem value_eq (d : Decimal) :
    d.value = (if d.negative then -(d.mantissa : ℚ) else d.mantissa) / 10 ^ d.scale := by
  unfold value signed
  split <;> simp

theorem value_of_not_negative {d : Decimal} (h : d.negative = false) :
    d.value = d.mantissa / 10 ^ d.scale := by
  simp [value_eq, h]

theorem value_eq_signedAt (d : Decimal) {s : Nat} (h : d.scale ≤ s) :
    d.value = (d.signedAt s : ℚ) / 10 ^ s := by
  obtain ⟨e, rfl⟩ := Nat.exists_eq_add_of_le h
  simp only [value, signedAt, Nat.add_sub_cancel_left, pow_add]
  push_cast
  field_simp

/-- Comparing at a common scale compares the values. -/
theorem signedAt_lt_signedAt {a b : Decimal} {s : Nat} (ha : a.scale ≤ s) (hb : b.scale ≤ s) :
    a.signedAt s < b.signedAt s ↔ a.value < b.value := by
  rw [a.value_eq_signedAt ha, b.value_eq_signedAt hb,
    div_lt_div_iff_of_pos_right (by positivity)]
  norm_cast

theorem lt_iff_value_lt {a b : Decimal} : a < b ↔ a.value < b.value := by
  show Ord.compare _ _ = .lt ↔ _
  rw [compare_lt_iff_lt]
  exact signedAt_lt_signedAt (Nat.le_max_left _ _) (Nat.le_max_right _ _)

theorem le_iff_value_le {a b : Decimal} : a ≤ b ↔ a.value ≤ b.value := by
  show Ord.compare _ _ ≠ .gt ↔ _
  rw [Ne, compare_gt_iff_gt, ← not_lt]
  exact not_congr (signedAt_lt_signedAt (Nat.le_max_right _ _) (Nat.le_max_left _ _))

theorem not_le_iff_lt {a b : Decimal} : ¬ a ≤ b ↔ b < a := by
  rw [le_iff_value_le, lt_iff_value_lt, not_le]

theorem not_lt_iff_le {a b : Decimal} : ¬ a < b ↔ b ≤ a := by
  rw [le_iff_value_le, lt_iff_value_lt, not_lt]

theorem le_of_lt {a b : Decimal} (h : a < b) : a ≤ b :=
  le_iff_value_le.mpr (lt_iff_value_lt.mp h).le

theorem le_trans {a b c : Decimal} (hab : a ≤ b) (hbc : b ≤ c) : a ≤ c :=
  le_iff_value_le.mpr ((le_iff_value_le.mp hab).trans (le_iff_value_le.mp hbc))

/-- The smaller of two decimals is at most the right one. -/
theorem min_le_right (a b : Decimal) : a.min b ≤ b := by
  unfold min
  split
  · exact le_iff_value_le.mpr le_rfl
  · rename_i h
    exact not_lt_iff_le.mp h

/-- A decimal below both is below the smaller one. -/
theorem le_min {a b c : Decimal} (ha : c ≤ a) (hb : c ≤ b) : c ≤ a.min b := by
  unfold min
  split
  · exact hb
  · exact ha

@[simp] theorem value_zero : zero.value = 0 := by simp [value, signed, zero]

@[simp] theorem value_one : one.value = 1 := by simp [value, signed, one]

theorem value_of_mantissa_zero {d : Decimal} (h : d.mantissa = 0) : d.value = 0 := by
  simp [value_eq, h]

/-- A decimal is not below zero exactly when it has no minus sign or is a zero. -/
theorem value_nonneg_iff (d : Decimal) : 0 ≤ d.value ↔ d.negative = false ∨ d.mantissa = 0 := by
  rw [value_eq]
  cases d.negative with
  | false => simp only [Bool.false_eq_true, if_false, true_or, iff_true]; positivity
  | true =>
    simp only [if_true, Bool.true_eq_false, false_or, neg_div, neg_nonneg,
      div_le_iff₀ (show (0 : ℚ) < 10 ^ d.scale by positivity), zero_mul]
    exact_mod_cast Nat.le_zero

theorem negative_of_value_nonneg {d : Decimal} (h : 0 ≤ d.value) (hm : d.mantissa ≠ 0) :
    d.negative = false :=
  ((value_nonneg_iff d).mp h).resolve_right hm

/-! ## Signs of products and quotients -/

theorem ofPartsPositiveZero?_nonneg {m s : Nat} {d : Decimal}
    (h : ofPartsPositiveZero? m s false = some d) : 0 ≤ d.value := by
  obtain ⟨-, -, hneg⟩ := ofParts?_spec h
  exact (value_nonneg_iff d).mpr (Or.inl (by simpa using hneg))

theorem fit?_nonneg {n s : Nat} {d : Decimal} (h : fit? false n s = some d) : 0 ≤ d.value := by
  obtain ⟨k, -, -, -, -, hneg, -⟩ := fit?_spec h
  exact (value_nonneg_iff d).mpr (Or.inl (by simpa using hneg))

/-- A product of values that are not negative is not negative. -/
theorem mul?_nonneg {a b c : Decimal} (ha : 0 ≤ a.value) (hb : 0 ≤ b.value)
    (h : a.mul? b = some c) : 0 ≤ c.value := by
  unfold mul? at h
  split at h
  · cases h
    simp
  · rename_i hz
    simp only [Bool.or_eq_true, decide_eq_true_eq, not_or] at hz
    rw [negative_of_value_nonneg ha hz.1, negative_of_value_nonneg hb hz.2] at h
    dsimp only at h
    split at h
    · cases h
      simp
    · exact fit?_nonneg h

/-- A quotient of values that are not negative is not negative. -/
theorem div?_nonneg {a b c : Decimal} (ha : 0 ≤ a.value) (hb : 0 ≤ b.value)
    (h : a.div? b = some c) : 0 ≤ c.value := by
  unfold div? at h
  split at h
  · cases h
  · split at h
    · cases h
      simp
    · rename_i hb0 ha0
      simp only [Option.bind_eq_bind, Option.bind_eq_some_iff] at h
      obtain ⟨⟨q, s, seen⟩, -, h⟩ := h
      rw [negative_of_value_nonneg ha ha0, negative_of_value_nonneg hb hb0] at h
      generalize (if seen = true then stripZeros q s.toNat else (q, s.toNat)) = qs at h
      exact ofPartsPositiveZero?_nonneg h

@[simp] theorem orOverflow_eq_ok {o : Overflow} {x : Option Decimal} {d : Decimal} :
    orOverflow o x = .ok d ↔ x = some d := by
  cases x <;> simp [orOverflow]

theorem mul_nonneg {a b c : Decimal} (ha : 0 ≤ a.value) (hb : 0 ≤ b.value)
    (h : a.mul b = .ok c) : 0 ≤ c.value :=
  mul?_nonneg ha hb (orOverflow_eq_ok.mp h)

theorem div_nonneg {a b c : Decimal} (ha : 0 ≤ a.value) (hb : 0 ≤ b.value)
    (h : a.div b = .ok c) : 0 ≤ c.value := by
  unfold div at h
  split at h
  · cases h
  · exact div?_nonneg ha hb (orOverflow_eq_ok.mp h)

theorem value_ofNat_nonneg (n : Nat) : 0 ≤ (ofNat n).value := by
  refine (value_nonneg_iff _).mpr (Or.inl ?_)
  unfold ofNat
  split <;> rfl

/-! ## Sums -/

/-- The rounded result of `fit?` is at least every decimal that the exact sum `n` at scale `s`
already reaches. -/
theorem le_value_of_fit? {x d : Decimal} {n s : Nat} (hfit : fit? false n s = some d)
    (hx : x.negative = false) (hs : x.scale ≤ s) (hn : x.mantissa * 10 ^ (s - x.scale) ≤ n) :
    x.value ≤ d.value := by
  obtain ⟨k, -, hks, hm, hsc, hneg, hmin⟩ := fit?_spec hfit
  have hdneg : d.negative = false := by simpa using hneg
  rw [value_of_not_negative hx, value_of_not_negative hdneg, hm, hsc,
    div_le_div_iff₀ (by positivity) (by positivity)]
  by_cases hkeep : x.scale + k ≤ s
  · -- `x` keeps all its digits at the result's scale: truncating the sum already reaches it
    obtain ⟨e, he⟩ : ∃ e, s - k = x.scale + e := ⟨s - k - x.scale, by omega⟩
    have hmul : x.mantissa * 10 ^ e ≤ roundDiv n k := by
      refine Nat.le_trans ?_ (div_le_roundDiv n k)
      rw [Nat.le_div_iff_mul_le (Nat.pow_pos (by decide)), Nat.mul_assoc, ← Nat.pow_add]
      exact Nat.le_trans (Nat.le_of_eq (by congr 2; omega)) hn
    have hq : (x.mantissa : ℚ) * 10 ^ e ≤ roundDiv n k := by exact_mod_cast hmul
    calc (x.mantissa : ℚ) * 10 ^ (s - k)
        = x.mantissa * 10 ^ e * 10 ^ x.scale := by rw [he, pow_add]; ring
      _ ≤ roundDiv n k * 10 ^ x.scale :=
        mul_le_mul_of_nonneg_right hq (by positivity)
  · -- `x` would lose a digit: one digit fewer did not fit, so the result is past `2^96 / 10`
    have hk : s - maxScale ≤ k - 1 := by
      have := x.scale_le
      unfold maxScale at this ⊢
      omega
    have hbig := roundDiv_succ_ge n (k - 1) (hmin (k - 1) hk (by omega))
    rw [show k - 1 + 1 = k by omega] at hbig
    have hxm : (x.mantissa : ℚ) ≤ 10 * roundDiv n k := by
      exact_mod_cast (Nat.lt_of_lt_of_le x.mantissa_lt hbig).le
    obtain ⟨e, he⟩ : ∃ e, x.scale = s - k + 1 + e := ⟨x.scale - (s - k + 1), by omega⟩
    have hone : (1 : ℚ) ≤ 10 ^ e := one_le_pow₀ (by norm_num)
    calc (x.mantissa : ℚ) * 10 ^ (s - k)
        ≤ 10 * roundDiv n k * 10 ^ (s - k) := mul_le_mul_of_nonneg_right hxm (by positivity)
      _ = roundDiv n k * 10 ^ (s - k + 1) * 1 := by ring
      _ ≤ roundDiv n k * 10 ^ (s - k + 1) * 10 ^ e :=
        mul_le_mul_of_nonneg_left hone (by positivity)
      _ = roundDiv n k * 10 ^ x.scale := by rw [he, pow_add]; ring

/-- A sum of values that are not negative is at least each of them. -/
theorem add?_ge {a b c : Decimal} (ha : 0 ≤ a.value) (hb : 0 ≤ b.value)
    (h : a.add? b = some c) : a.value ≤ c.value ∧ b.value ≤ c.value := by
  unfold add? combine at h
  split at h
  · -- a zero left operand gives the right one back
    rename_i ha0
    simp only [Bool.false_and, Bool.false_eq_true, if_false, Option.some.injEq] at h
    subst h
    exact ⟨(value_of_mantissa_zero ha0).symm ▸ hb, le_rfl⟩
  · split at h
    · rename_i _ hb0
      cases h
      exact ⟨le_rfl, (value_of_mantissa_zero hb0).symm ▸ ha⟩
    · rename_i ha0 hb0
      have han := negative_of_value_nonneg ha ha0
      have hbn := negative_of_value_nonneg hb hb0
      simp only [han, hbn, Bool.false_eq_true, if_false, beq_self_eq_true, if_true] at h
      constructor
      · exact le_value_of_fit? h han (Nat.le_max_left _ _) (Nat.le_add_right _ _)
      · exact le_value_of_fit? h hbn (Nat.le_max_right _ _) (Nat.le_add_left _ _)

theorem add_ge {a b c : Decimal} (ha : 0 ≤ a.value) (hb : 0 ≤ b.value)
    (h : a.add b = .ok c) : a.value ≤ c.value ∧ b.value ≤ c.value :=
  add?_ge ha hb (orOverflow_eq_ok.mp h)

end Decimal

end PoolTreasury
