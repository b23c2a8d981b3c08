import Mathlib.Tactic.LinearCombination
import PoolTreasury.Proofs.Decimal.Exact

/-! # Exact quotients

Long division stops exactly where the exact quotient ends. While the remainder is not zero,
the exact quotient has digits beyond the current scale; when it is the value of some decimal,
those digits end by place 28 and fit below `2^96`, so every chunk of digits that
`quotientStep` asks for has room, and the division reaches a zero remainder without rounding.
A chunk may run past the end of the exact quotient by trailing zeros; when that pushes the
mantissa to `2^96`, the one digit dropped again is a zero. The zeros that `stripZeros` then
removes change the writing, not the number.

`OnWay` is the invariant of the division: the digits so far with the remainder over the
divisor, at the current scale, are the exact quotient.

Main statement: `div?_exact`, a quotient is exact when some decimal holds it.
-/

namespace PoolTreasury

namespace Decimal

/-! ## Powers of ten at integer scales -/

/-- An equation between two numbers at scales `S` and `scale ≤ S` is one between whole
numbers. -/
theorem nat_eq_of_scaled {A B S t : Nat} {scale : Int}
    (h : (A : ℚ) * 10 ^ S = B * (10 : ℚ) ^ scale) (ht : (S : Int) = scale + t) :
    A * 10 ^ t = B := by
  have hpow : (10 : ℚ) ^ S = 10 ^ scale * 10 ^ t := by
    rw [← zpow_natCast, ht, zpow_add₀ (by norm_num), zpow_natCast]
  rw [hpow, ← mul_assoc, mul_comm (A : ℚ), mul_assoc, mul_comm (B : ℚ)] at h
  have h' := mul_left_cancel₀ (zpow_ne_zero scale (by norm_num : (10 : ℚ) ≠ 0)) h
  exact_mod_cast h'

/-- The same equation when the second scale is the larger. -/
theorem nat_eq_of_scaled' {A B S t : Nat} {scale : Int}
    (h : (A : ℚ) * 10 ^ S = B * (10 : ℚ) ^ scale) (ht : scale = (S : Int) + t) :
    A = B * 10 ^ t := by
  have hpow : (10 : ℚ) ^ scale = 10 ^ S * 10 ^ t := by
    rw [ht, zpow_add₀ (by norm_num), zpow_natCast, zpow_natCast]
  rw [hpow, mul_comm (10 ^ S : ℚ), ← mul_assoc] at h
  have h' := mul_right_cancel₀ (pow_ne_zero S (by norm_num : (10 : ℚ) ≠ 0)) h
  exact_mod_cast h'

/-! ## The invariant of the division -/

/-- The division by `m` is on its way to the exact quotient `M / 10^S`: the digits `q` so far,
with the remainder `r` over `m`, at scale `scale`, are that quotient. -/
def OnWay (m M S q r : Nat) (scale : Int) : Prop :=
  r < m ∧ ((q * m + r : Nat) : ℚ) * 10 ^ S = ((M * m : Nat) : ℚ) * (10 : ℚ) ^ scale

section OnWay

variable {m M S q r : Nat} {scale : Int}

/-- A remainder is left only before the exact quotient ends. -/
theorem OnWay.scale_lt (h : OnWay m M S q r scale) (hr : r ≠ 0) : scale < S := by
  by_contra hle
  -- at or past the end the division is exact, so `m` divides the remainder
  have hnat := nat_eq_of_scaled' h.2 (t := (scale - S).toNat) (by omega)
  have hdvd : m ∣ r := by
    have : m ∣ q * m + r := ⟨M * 10 ^ (scale - S).toNat, by rw [hnat]; ring⟩
    exact (Nat.dvd_add_right (Nat.dvd_mul_left m q)).mp this
  exact hr (Nat.eq_zero_of_dvd_of_lt hdvd h.1)

/-- Before the end, the digits so far with as many more as the quotient still has stay below
its mantissa. -/
theorem OnWay.le (h : OnWay m M S q r scale) (hsc : scale ≤ S) (hm : 0 < m) : q ≤ M := by
  have hnat := nat_eq_of_scaled h.2 (t := (S - scale).toNat) (by omega)
  have hle : q * m ≤ M * m :=
    calc q * m ≤ (q * m + r) * 10 ^ (S - scale).toNat :=
          Nat.le_mul_of_pos_right _ (Nat.pow_pos (by decide)) |>.trans' (Nat.le_add_right _ _)
      _ = M * m := hnat
  exact Nat.le_of_mul_le_mul_right hle hm

/-- With a remainder left, the digits so far followed by as many zeros as the quotient still
has lie below its mantissa. -/
theorem OnWay.shifted_lt (h : OnWay m M S q r scale) (hr : r ≠ 0) :
    q * 10 ^ (S - scale).toNat < M := by
  have hnat := nat_eq_of_scaled h.2 (t := (S - scale).toNat) (by have := h.scale_lt hr; omega)
  have hlt : q * 10 ^ (S - scale).toNat * m < M * m := by
    rw [← hnat]
    have : 0 < 10 ^ (S - scale).toNat := Nat.pow_pos (by decide)
    nlinarith [Nat.pos_of_ne_zero hr]
  exact Nat.lt_of_mul_lt_mul_right hlt

/-- Past the end of the quotient the remainder is zero and the digits are its mantissa followed
by zeros. -/
theorem OnWay.past_end (h : OnWay m M S q r scale) (hsc : S < scale) :
    r = 0 ∧ q = M * 10 ^ (scale - S).toNat := by
  have hr : r = 0 := by
    by_contra hr
    exact absurd (h.scale_lt hr) (by omega)
  have hnat := nat_eq_of_scaled' h.2 (t := (scale - S).toNat) (by omega)
  subst hr
  refine ⟨rfl, ?_⟩
  have hm : 0 < m := by have := h.1; omega
  apply Nat.eq_of_mul_eq_mul_right hm
  rw [← Nat.add_zero (q * m), hnat]
  ring

/-- With no remainder the digits are the quotient. -/
theorem OnWay.exact (h : OnWay m M S q 0 scale) (hm : 0 < m) :
    (q : ℚ) * 10 ^ S = M * (10 : ℚ) ^ scale := by
  have h2 := h.2
  push_cast at h2
  have hm' : (m : ℚ) ≠ 0 := by exact_mod_cast hm.ne'
  apply mul_right_cancel₀ hm'
  linear_combination h2

/-- Bringing down `p` more digits keeps the division on its way. -/
theorem OnWay.step (h : OnWay m M S q r scale) (hm : 0 < m) (p : Nat) :
    OnWay m M S (q * 10 ^ p + r * 10 ^ p / m) (r * 10 ^ p % m) (scale + p) := by
  refine ⟨Nat.mod_lt _ hm, ?_⟩
  have hdigits : (q * 10 ^ p + r * 10 ^ p / m) * m + r * 10 ^ p % m = (q * m + r) * 10 ^ p := by
    have := Nat.div_add_mod' (r * 10 ^ p) m
    rw [Nat.add_mul, Nat.add_assoc, this]
    ring
  have h2 := h.2
  rw [hdigits, zpow_add₀ (by norm_num), zpow_natCast]
  push_cast at h2 ⊢
  linear_combination (10 : ℚ) ^ p * h2

end OnWay

/-! ## Chunks of digits -/

/-- The longest chunk up to `top` that keeps `q` below `2^96` is at least every chunk up to
`top` that does. -/
theorem find?_fits {q k : Nat} (hk : q * 10 ^ k < mantissaBound) :
    ∀ top, k ≤ top → ∃ p,
      (List.range (top + 1)).reverse.find? (fun p => decide (q * 10 ^ p < mantissaBound)) =
        some p ∧ k ≤ p ∧ p ≤ top ∧ q * 10 ^ p < mantissaBound
  | top, hkt => by
    rw [List.range_succ, List.reverse_append, List.reverse_singleton, List.singleton_append,
      List.find?_cons]
    by_cases htop : q * 10 ^ top < mantissaBound
    · simp only [htop, decide_true]
      exact ⟨top, rfl, hkt, le_rfl, htop⟩
    · simp only [htop, decide_false]
      -- the top does not fit, so the chunk that fits lies below it
      have hk' : k < top := by
        rcases Nat.lt_or_ge k top with hlt | hge
        · exact hlt
        · exact absurd (Nat.le_antisymm hkt hge ▸ hk) htop
      obtain ⟨t, rfl⟩ : ∃ t, top = t + 1 := ⟨top - 1, by omega⟩
      obtain ⟨p, hfind, hkp, hpt, hpfit⟩ := find?_fits hk t (by omega)
      exact ⟨p, hfind, hkp, by omega, hpfit⟩

/-- When `k ≥ 1` more digits fit and end at a scale from 0 to 28, `quotientStep` asks for at
least one and at most nine digits, as many as keep the mantissa below `2^96` and the scale at
most 28. -/
theorem quotientStep_spec {q k : Nat} {scale : Int} (hk : 1 ≤ k)
    (hfit : q * 10 ^ k < mantissaBound) (h0 : 0 ≤ scale + k) (h28 : scale + k ≤ 28) :
    ∃ p, quotientStep q scale = some p ∧ 1 ≤ p ∧ p ≤ 9 ∧ q * 10 ^ p < mantissaBound ∧
      scale + p ≤ 28 := by
  unfold quotientStep
  dsimp only
  split
  · -- nine digits at once
    rename_i h9
    simp only [Bool.and_eq_true, decide_eq_true_eq] at h9
    exact ⟨9, rfl, by decide, le_rfl, h9.2, by omega⟩
  · rename_i h9
    simp only [Bool.and_eq_true, decide_eq_true_eq, not_and] at h9
    -- the `k` digits are within the top the step looks at
    have hktop : k ≤ (if scale > 19 then (28 - scale).toNat else 8) := by
      split
      · omega
      · by_contra hlt
        have hfit9 : q * 10 ^ 9 < mantissaBound :=
          Nat.lt_of_le_of_lt (Nat.mul_le_mul_left q (Nat.pow_le_pow_right (by decide) (by omega)))
            hfit
        exact h9 (by omega) hfit9
    obtain ⟨p, hfind, hkp, hptop, hpfit⟩ := find?_fits hfit _ hktop
    rw [hfind, Option.getD_some, if_neg (by omega)]
    refine ⟨p, rfl, by omega, ?_, hpfit, ?_⟩ <;> split at hptop <;> omega

/-- Dropping a zero digit with nothing beyond it is exact. -/
theorem dropOverflowDigit_zero {n : Nat} {scale : Int} (hs : 1 ≤ scale) (hn : n % 10 = 0) :
    dropOverflowDigit n scale false = some (n / 10, scale - 1) := by
  unfold dropOverflowDigit
  rw [if_neg (by omega)]
  simp [hn]

/-! ## The long division -/

/-- Digits that reach `2^96` ran past the end of the exact quotient: the last of them is a
zero, and dropping it leaves the exact quotient at a scale from 0 to 28. -/
theorem dropOverflowDigit_past_end {m M S q r p : Nat} {scale : Int} (hm : 0 < m)
    (hM : M < mantissaBound) (hway : OnWay m M S q r scale) (hp9 : p ≤ 9)
    (hpfit : q * 10 ^ p < mantissaBound) (hp28 : scale + p ≤ 28)
    (hbig : ¬ q * 10 ^ p + r * 10 ^ p / m < mantissaBound) :
    ∃ q' s', dropOverflowDigit (q * 10 ^ p + r * 10 ^ p / m) (scale + p) (r * 10 ^ p % m != 0) =
        some (q', s') ∧
      q' < mantissaBound ∧ 0 ≤ s' ∧ s' ≤ 28 ∧ (q' : ℚ) * 10 ^ S = M * (10 : ℚ) ^ s' := by
  have hway' := hway.step hm p
  have hpast : (S : Int) < scale + p := by
    by_contra hle
    exact hbig (Nat.lt_of_le_of_lt (hway'.le (by omega) hm) hM)
  obtain ⟨hr0, hq'⟩ := hway'.past_end hpast
  set j := (scale + p - S).toNat with hj
  have hj1 : 1 ≤ j := by omega
  have hzero : (q * 10 ^ p + r * 10 ^ p / m) % 10 = 0 := by
    rw [hq', show j = (j - 1) + 1 by omega, Nat.pow_succ, ← Nat.mul_assoc, Nat.mul_mod_left]
  rw [hr0, show ((0 : Nat) != 0) = false from rfl, dropOverflowDigit_zero (by omega) hzero]
  refine ⟨_, _, rfl, ?_, by omega, by omega, ?_⟩
  · -- one digit fewer is below `2^96` again: at most nine digits were brought down
    have hcarry : r * 10 ^ p / m < 10 ^ p :=
      Nat.div_lt_of_lt_mul (Nat.mul_lt_mul_of_pos_right hway.1 (Nat.pow_pos (by decide)))
    have h9 : 10 ^ p ≤ 10 ^ 9 := Nat.pow_le_pow_right (by decide) hp9
    unfold mantissaBound at hpfit ⊢
    omega
  · -- the digit dropped is one of the zeros past the end
    have hdiv : (q * 10 ^ p + r * 10 ^ p / m) / 10 = M * 10 ^ (j - 1) := by
      rw [hq', show j = (j - 1) + 1 by omega, Nat.pow_succ, ← Nat.mul_assoc,
        Nat.mul_div_cancel _ (by decide)]
      rfl
    rw [hdiv, show scale + (p : Int) - 1 = (S : Int) + ((j - 1 : Nat) : Int) by omega,
      zpow_add₀ (by norm_num), zpow_natCast, zpow_natCast]
    push_cast
    ring

/-- A long division on its way to a quotient that some decimal holds ends at it, at a scale
from 0 to 28 and with a mantissa below `2^96`. The fuel is enough while it outnumbers the
places still to come: each round brings down at least one digit, and the scale never passes
28. -/
theorem longDivision_exact {m M S : Nat} (hm : 0 < m) (hM : M < mantissaBound) (hS : S ≤ 28) :
    ∀ (fuel q r : Nat) (scale : Int) (seen : Bool), OnWay m M S q r scale →
      q < mantissaBound → scale ≤ 28 → 29 ≤ fuel + scale →
      ∃ q' s' seen', longDivision m fuel q r scale seen = some (q', s', seen') ∧
        q' < mantissaBound ∧ 0 ≤ s' ∧ s' ≤ 28 ∧ (q' : ℚ) * 10 ^ S = M * (10 : ℚ) ^ s'
  | 0, _, _, scale, _, _, _, hscale, hfuel => by omega
  | fuel + 1, q, r, scale, seen, hway, hq, hscale, hfuel => by
    rw [longDivision]
    split
    · -- no remainder: the digits are the quotient, once the scale is not negative
      rename_i hr
      subst hr
      split
      · rename_i hs0
        exact ⟨q, scale, seen, rfl, hq, hs0, hscale, hway.exact hm⟩
      · rename_i hs0
        -- the quotient is whole, so the zeros that bring the scale up to zero fit
        have hwhole := nat_eq_of_scaled (hway.exact hm) (t := (S - scale).toNat) (by omega)
        have hmin : 1 ≤ Nat.min 9 (-scale).toNat ∧ Nat.min 9 (-scale).toNat ≤ (-scale).toNat := by
          unfold Nat.min
          omega
        have hpfit : q * 10 ^ Nat.min 9 (-scale).toNat < mantissaBound := by
          have hle : q * 10 ^ Nat.min 9 (-scale).toNat ≤ q * 10 ^ (S - scale).toNat :=
            Nat.mul_le_mul_left q (Nat.pow_le_pow_right (by decide) (by omega))
          omega
        rw [if_pos hpfit]
        have hstep := hway.step hm (Nat.min 9 (-scale).toNat)
        simp only [Nat.zero_mul, Nat.zero_div, Nat.zero_mod, Nat.add_zero] at hstep
        exact longDivision_exact hm hM hS fuel _ 0 _ seen hstep hpfit (by omega) (by omega)
    · -- a remainder is left: the exact quotient has more digits, and they fit
      rename_i hr
      have hlt := hway.scale_lt hr
      rw [if_neg (by omega)]
      obtain ⟨p, hstep, hp1, hp9, hpfit, hp28⟩ :=
        @quotientStep_spec q (S - scale).toNat scale (by omega)
          (Nat.lt_of_lt_of_le (hway.shifted_lt hr) hM.le) (by omega) (by omega)
      split
      · rename_i heq
        rw [hstep] at heq
        cases heq
      · rename_i heq
        rw [hstep] at heq
        cases heq
        omega
      rename_i p'' _ heq
      rw [hstep] at heq
      cases heq
      obtain ⟨p', rfl⟩ : ∃ p', p = p' + 1 := ⟨p - 1, by omega⟩
      dsimp only
      have hway' := hway.step hm (p' + 1)
      split
      · -- the new digits fit: the division goes on
        rename_i hfit'
        exact longDivision_exact hm hM hS fuel _ _ _ true hway' hfit' (by omega) (by omega)
      · -- the new digits reach `2^96`, so they run past the end of the quotient by zeros
        rename_i hbig
        obtain ⟨q', s', hdrop, hq', hs0, hs28, hv⟩ :=
          dropOverflowDigit_past_end hm hM hway hp9 hpfit hp28 hbig
        rw [hdrop]
        exact ⟨q', s', true, rfl, hq', hs0, hs28, hv⟩

/-! ## Removing trailing zeros -/

/-- `q' / 10^s'` is the number `q / 10^s`, written with no more places. -/
def Shortens (q s q' s' : Nat) : Prop := s' ≤ s ∧ q' * 10 ^ (s - s') = q

theorem Shortens.refl (q s : Nat) : Shortens q s q s := ⟨le_rfl, by simp⟩

theorem Shortens.trans {q s q₁ s₁ q₂ s₂ : Nat} (h₁ : Shortens q s q₁ s₁)
    (h₂ : Shortens q₁ s₁ q₂ s₂) : Shortens q s q₂ s₂ := by
  refine ⟨h₂.1.trans h₁.1, ?_⟩
  rw [← h₁.2, ← h₂.2, Nat.mul_assoc, ← Nat.pow_add]
  congr 2
  have := h₁.1
  have := h₂.1
  omega

/-- The number is kept. -/
theorem Shortens.value_eq {q s q' s' : Nat} (h : Shortens q s q' s') :
    (q' : ℚ) / 10 ^ s' = q / 10 ^ s := by
  rw [← h.2, show s = s' + (s - s') by have := h.1; omega, pow_add]
  push_cast
  rw [Nat.add_sub_cancel_left]
  field_simp

/-- Dropping `k` zeros, when they are there and the scale allows. -/
theorem shortens_drop {q s k : Nat} (hk : k ≤ s) (hq : q % 10 ^ k = 0) :
    Shortens q s (q / 10 ^ k) (s - k) := by
  refine ⟨Nat.sub_le s k, ?_⟩
  rw [show s - (s - k) = k by omega]
  exact Nat.div_mul_cancel (Nat.dvd_of_mod_eq_zero hq)

theorem dropZeros_shortens (q s k : Nat) :
    Shortens q s (dropZeros q s k).1 (dropZeros q s k).2 := by
  unfold dropZeros
  split
  · rename_i h
    simp only [Bool.and_eq_true, decide_eq_true_eq] at h
    exact shortens_drop h.1 h.2
  · exact Shortens.refl q s

theorem dropEights_shortens :
    ∀ fuel q s, Shortens q s (dropEights q s fuel).1 (dropEights q s fuel).2
  | 0, q, s => Shortens.refl q s
  | fuel + 1, q, s => by
    unfold dropEights
    split
    · rename_i h
      simp only [Bool.and_eq_true, decide_eq_true_eq] at h
      exact (shortens_drop (k := 8) h.1.2 h.2).trans (dropEights_shortens fuel _ _)
    · exact Shortens.refl q s

/-- Removing trailing zeros keeps the number. -/
theorem stripZeros_shortens (q s : Nat) :
    Shortens q s (stripZeros q s).1 (stripZeros q s).2 := by
  unfold stripZeros
  split
  · exact Shortens.refl q s
  · exact (dropEights_shortens 4 q s).trans ((dropZeros_shortens _ _ 4).trans
      ((dropZeros_shortens _ _ 2).trans (dropZeros_shortens _ _ 1)))

/-! ## Quotients -/

/-- A value is its sign times its size. -/
theorem value_eq_sign (d : Decimal) : d.value = (if d.negative then -1 else 1) * |d.value| := by
  rw [abs_value, value_eq]
  split <;> ring

/-- Long division starts from the whole quotient and the remainder of the mantissas, at the
difference of the scales, on the way to the exact quotient `d`. -/
theorem onWay_start {a b d : Decimal} (hb : b.mantissa ≠ 0)
    (hsize : |a.value| / |b.value| = (d.mantissa : ℚ) / 10 ^ d.scale) :
    OnWay b.mantissa d.mantissa d.scale (a.mantissa / b.mantissa) (a.mantissa % b.mantissa)
      ((a.scale : Int) - b.scale) := by
  refine ⟨Nat.mod_lt _ (Nat.pos_of_ne_zero hb), ?_⟩
  rw [Nat.div_add_mod', zpow_sub₀ (by norm_num), zpow_natCast, zpow_natCast]
  rw [abs_value, abs_value] at hsize
  have hb' : (b.mantissa : ℚ) ≠ 0 := by exact_mod_cast hb
  field_simp at hsize ⊢
  push_cast
  linear_combination hsize

/-- A quotient of the exact size, signed as `div?` signs it, is the exact quotient. -/
theorem value_of_quotient_size {a b : Decimal} {q s : Nat} (hq : q < mantissaBound)
    (hs : s ≤ maxScale) (ha0 : a.mantissa ≠ 0) (hb : b.mantissa ≠ 0)
    (hsize : (q : ℚ) / 10 ^ s = |a.value| / |b.value|) :
    (⟨q, s, (a.negative != b.negative) && (q != 0), hq, hs⟩ : Decimal).value =
      a.value / b.value := by
  have ha : a.value ≠ 0 := by
    rw [value_eq]
    split <;> simp [ha0]
  have hq0 : q ≠ 0 := by
    rintro rfl
    rw [Nat.cast_zero, zero_div, eq_comm, div_eq_zero_iff] at hsize
    rcases hsize with h0 | h0
    · exact ha (abs_eq_zero.mp h0)
    · rw [abs_eq_zero, value_eq] at h0
      split at h0 <;> simp [hb] at h0
  -- the sign is that of the quotient, and the size is the exact one
  rw [value_eq_sign, abs_value]
  dsimp only
  rw [hsize]
  conv_rhs => rw [value_eq_sign a, value_eq_sign b]
  have hbabs : |b.value| ≠ 0 := by
    rw [abs_value]
    have : (b.mantissa : ℚ) ≠ 0 := by exact_mod_cast hb
    positivity
  have hq0' : (q != 0) = true := by simpa using hq0
  rw [hq0', Bool.and_true]
  cases a.negative <;> cases b.negative <;> simp <;> field_simp

/-- A quotient is exact when some decimal holds it, whatever the signs. -/
theorem div?_exact {a b d : Decimal} (hb : b.mantissa ≠ 0) (h : a.value / b.value = d.value) :
    ∃ c, a.div? b = some c ∧ c.value = d.value := by
  unfold div?
  rw [if_neg hb]
  split
  · -- a zero dividend gives the plain zero
    rename_i ha0
    exact ⟨zero, rfl, by rw [value_zero, ← h, value_of_mantissa_zero ha0, zero_div]⟩
  rename_i ha0
  -- the sizes: the mantissa of the exact quotient at its scale
  have hsize : |a.value| / |b.value| = (d.mantissa : ℚ) / 10 ^ d.scale := by
    rw [← abs_div, h, abs_value]
  obtain ⟨q, s, seen, hlong, hq, hs0, hs28, hval⟩ :=
    longDivision_exact (Nat.pos_of_ne_zero hb) d.mantissa_lt d.scale_le 64 _ _ _ false
      (onWay_start hb hsize) (Nat.lt_of_le_of_lt (Nat.div_le_self _ _) a.mantissa_lt)
      (by have := a.scale_le; unfold maxScale at this; omega)
      (by have := b.scale_le; unfold maxScale at this; omega)
  simp only [hlong, Option.bind_eq_bind, Option.bind_some]
  -- the zeros the extension added are removed without changing the number
  obtain ⟨q', s', hstrip, hshort⟩ : ∃ q' s',
      (if seen then stripZeros q s.toNat else (q, s.toNat)) = (q', s') ∧
        Shortens q s.toNat q' s' := by
    split
    · exact ⟨_, _, rfl, stripZeros_shortens q s.toNat⟩
    · exact ⟨_, _, rfl, Shortens.refl q s.toNat⟩
  rw [hstrip]
  have hq' : q' < mantissaBound := by
    have := hshort.2
    have : q' ≤ q := this ▸ Nat.le_mul_of_pos_right _ (Nat.pow_pos (by decide))
    omega
  have hs' : s' ≤ maxScale := by have := hshort.1; unfold maxScale; omega
  simp only [ofPartsPositiveZero?, ofParts?, hq', hs', dif_pos, Option.some.injEq,
    exists_eq_left']
  -- the size of the result is the size of the exact quotient
  have hsize' : (q' : ℚ) / 10 ^ s' = |a.value| / |b.value| := by
    have hpow : (10 : ℚ) ^ s.toNat = 10 ^ s := by rw [← zpow_natCast, Int.toNat_of_nonneg hs0]
    rw [hshort.value_eq, hsize, div_eq_div_iff (by positivity) (by positivity), hpow]
    linear_combination hval
  rw [← h]
  exact value_of_quotient_size hq' hs' ha0 hb hsize'

end Decimal

end PoolTreasury
