import PoolTreasury.Proofs.Decimal.Quotient
import PoolTreasury.Proofs.Run.Step

/-! # Insurance and the price drop

The insurance on a stake is written as `⌈(0.9 · reserve) · amount / (0.1 · reserve)⌉`, so
that a reserve cancels out: when every intermediate product and quotient is exact the
insurance is `⌈9 · amount⌉` whatever the reserve (`insurance_eq_ceil_nine_amount`). The
intermediate results are decimals of at most 28 places, though: a reserve written with 28
places loses digits in `0.9 · reserve` and in `0.1 · reserve`, and the insurance then
depends on the reserve.

A closed stake is eligible for insurance when its price change, in percent, lies below the
pool's coating taken negatively. When the relative change is a decimal, the comparison is
the one of exact arithmetic: the closing price lies below the opening price less the
coating (`insurance_eligible_iff_price_drop`), and a claim is admitted as an insurance
claim exactly then. A relative change such as `-1/3` is rounded to 28 places first, and a
coating written with more places than the rounded change can then fall on the wrong side.
-/

namespace PoolTreasury

namespace Decimal

@[simp] theorem value_insuranceShare : insuranceShare.value = 9 / 10 := by
  simp [value, signed, insuranceShare]

@[simp] theorem value_capacityRatio : capacityRatio.value = 1 / 10 := by
  simp [value, signed, capacityRatio]

@[simp] theorem value_ten : ten.value = 10 := by
  simp [value, signed, ten]

@[simp] theorem value_hundred : hundred.value = 100 := by
  simp [value, signed, hundred]

/-- A value of magnitude at most one keeps its digits when it is scaled to percent. -/
theorem representable_mul_hundred {q : Decimal} (hq : |q.value| ≤ 1) :
    Representable (q.value * 100) := by
  rw [abs_value, div_le_one (by positivity)] at hq
  have hsign := value_eq_sign q
  by_cases hs : 2 ≤ q.scale
  · -- two places fewer
    let d : Decimal := ⟨q.mantissa, q.scale - 2, q.negative, q.mantissa_lt,
      Nat.le_trans (Nat.sub_le _ _) q.scale_le⟩
    refine ⟨d, ?_⟩
    have hpow : (10 : ℚ) ^ q.scale = 10 ^ (q.scale - 2) * 100 := by
      rw [show (100 : ℚ) = 10 ^ 2 by norm_num, ← pow_add, Nat.sub_add_cancel hs]
    rw [value_eq_sign d, abs_value, hsign, abs_value, hpow]
    dsimp only [d]
    field_simp
  · -- the mantissa grows by the places that are missing
    have hm : q.mantissa ≤ 10 ^ q.scale := by exact_mod_cast hq
    have hbound : q.mantissa * 10 ^ (2 - q.scale) < mantissaBound := by
      calc q.mantissa * 10 ^ (2 - q.scale) ≤ 10 ^ q.scale * 10 ^ (2 - q.scale) :=
            Nat.mul_le_mul_right _ hm
        _ = 100 := by rw [← pow_add, Nat.add_sub_cancel' (by omega)]; rfl
        _ < mantissaBound := by decide
    let d : Decimal := ⟨q.mantissa * 10 ^ (2 - q.scale), 0, q.negative, hbound, Nat.zero_le _⟩
    refine ⟨d, ?_⟩
    have hpow : (10 : ℚ) ^ q.scale * 10 ^ (2 - q.scale) = 100 := by
      rw [← pow_add, Nat.add_sub_cancel' (by omega)]; norm_num
    rw [value_eq_sign d, abs_value, hsign, abs_value]
    simp only [d, pow_zero, div_one, Nat.cast_mul, Nat.cast_pow, Nat.cast_ofNat]
    rw [← hpow]
    field_simp

end Decimal

open Decimal

/-! ## The insurance does not depend on the reserve -/

section Insurance

variable {reserve amount : Decimal}

/-- The reduced form `amount · 0.9 · 10` is exact when nine times the amount's mantissa fits
and the amount has a place to spare. -/
theorem reduced_insurance_exact (ha : 0 ≤ amount.value) (hs : amount.scale < maxScale)
    (hamount : 9 * amount.mantissa < mantissaBound) :
    ∃ r, (do let a ← amount.mul insuranceShare; a.mul ten) = (Except.ok r : Except Overflow Decimal) ∧
      r.value = 9 * amount.value := by
  have hav : amount.value = (amount.mantissa : ℚ) / 10 ^ amount.scale := by
    rw [← abs_value, abs_of_nonneg ha]
  obtain ⟨a, ha', hav'⟩ := mul_exact (a := amount) (b := insuranceShare)
    (d := ⟨9 * amount.mantissa, amount.scale + 1, false, hamount, hs⟩)
    (by rw [value_mk, hav, value_insuranceShare]; push_cast; field_simp; ring)
  obtain ⟨r, hr, hrv⟩ := mul_exact (a := a) (b := ten)
    (d := ⟨9 * amount.mantissa, amount.scale, false, hamount, Nat.le_of_lt hs⟩)
    (by rw [hav', value_mk, value_mk, value_ten]; push_cast; field_simp; ring)
  refine ⟨r, by rw [ha', Except.ok_bind, hr], ?_⟩
  rw [hrv, value_mk, hav]
  push_cast
  ring

/-- With a positive reserve, `0.9 · reserve`, `0.9 · reserve · amount` and `0.1 · reserve`
are exact when nine times the mantissas fits and the scales leave a place, and the reserve
cancels in the quotient. -/
theorem backed_insurance_exact (hr : 0 < reserve.value) (ha : 0 ≤ amount.value)
    (hscale : reserve.scale + amount.scale < maxScale)
    (hshare : 9 * reserve.mantissa < mantissaBound)
    (hprod : 9 * reserve.mantissa * amount.mantissa < mantissaBound) :
    ∃ share backed capacity v, insuranceShare.mul reserve = .ok share ∧
      share.mul? amount = some backed ∧ capacityRatio.mul reserve = .ok capacity ∧
      backed.div? capacity = some v ∧ v.value = 9 * amount.value := by
  have hav : amount.value = (amount.mantissa : ℚ) / 10 ^ amount.scale := by
    rw [← abs_value, abs_of_nonneg ha]
  have hm0 : reserve.mantissa ≠ 0 := fun h0 => by
    rw [value_of_mantissa_zero h0] at hr
    exact lt_irrefl _ hr
  have hrv := value_of_not_negative (negative_of_value_nonneg hr.le hm0)
  have hmr : (reserve.mantissa : ℚ) ≠ 0 := by exact_mod_cast hm0
  have hamount : 9 * amount.mantissa < mantissaBound :=
    Nat.lt_of_le_of_lt (Nat.mul_le_mul_right _ (Nat.le_mul_of_pos_right 9 (Nat.pos_of_ne_zero hm0)))
      hprod
  obtain ⟨share, hs, hsv⟩ := mul_exact (a := insuranceShare) (b := reserve)
    (d := ⟨9 * reserve.mantissa, reserve.scale + 1, false, hshare, by omega⟩)
    (by rw [value_mk, hrv, value_insuranceShare]; push_cast; field_simp; ring)
  obtain ⟨backed, hb, hbv⟩ := mul?_exact (a := share) (b := amount)
    (d := ⟨9 * reserve.mantissa * amount.mantissa, reserve.scale + 1 + amount.scale, false,
      hprod, by omega⟩)
    (by rw [hsv, value_mk, value_mk, hav]; push_cast; field_simp; ring)
  obtain ⟨capacity, hcap, hcapv⟩ := mul_exact (a := capacityRatio) (b := reserve)
    (d := ⟨reserve.mantissa, reserve.scale + 1, false, reserve.mantissa_lt, by omega⟩)
    (by rw [value_mk, hrv, value_capacityRatio]; field_simp; ring)
  have hcap0 : capacity.mantissa ≠ 0 := by
    intro h0
    rw [value_of_mantissa_zero h0, value_mk] at hcapv
    exact div_ne_zero hmr (by positivity) hcapv.symm
  obtain ⟨v, hv, hvv⟩ := div?_exact (a := backed) (b := capacity)
    (d := ⟨9 * amount.mantissa, amount.scale, false, hamount, by omega⟩) hcap0
    (by rw [hbv, hcapv, value_mk, value_mk, value_mk]; push_cast; field_simp; ring)
  refine ⟨share, backed, capacity, v, hs, hb, hcap, hv, ?_⟩
  rw [hvv, value_mk, hav]
  push_cast
  ring

/-- The three products the insurance forms fit when nine times the two mantissas does, a zero
mantissa counted as one. -/
theorem nine_mul_lt_of_max {r a : Nat} (h : 9 * max r 1 * max a 1 < mantissaBound) :
    9 * r < mantissaBound ∧ 9 * a < mantissaBound ∧ 9 * r * a < mantissaBound := by
  have hr : r ≤ max r 1 := Nat.le_max_left _ _
  have ha : a ≤ max a 1 := Nat.le_max_left _ _
  have hr1 : 1 ≤ max r 1 := Nat.le_max_right _ _
  have ha1 : 1 ≤ max a 1 := Nat.le_max_right _ _
  refine ⟨?_, ?_, ?_⟩
  · calc 9 * r ≤ 9 * max r 1 * max a 1 := by nlinarith
      _ < mantissaBound := h
  · calc 9 * a ≤ 9 * max r 1 * max a 1 := by nlinarith
      _ < mantissaBound := h
  · calc 9 * r * a ≤ 9 * max r 1 * max a 1 := by nlinarith
      _ < mantissaBound := h

theorem insurance_eq_ceil_nine_amount (ha : 0 ≤ amount.value)
    (hscale : reserve.scale + amount.scale < maxScale)
    (hsize : 9 * max reserve.mantissa 1 * max amount.mantissa 1 < mantissaBound) :
    ∃ c, insuranceAmount reserve amount = .ok c ∧ c.value = ⌈9 * amount.value⌉ := by
  obtain ⟨hshare, hamount, hprod⟩ := nine_mul_lt_of_max hsize
  obtain ⟨r, hr, hrv⟩ := reduced_insurance_exact ha (by omega) hamount
  unfold insuranceAmount
  split
  · -- a reserve that is not positive takes the reduced form
    obtain ⟨c, hc, hcv⟩ := ceil_exact (d := r) (by rw [hrv]; positivity)
    exact ⟨c, by rw [hr, Except.ok_bind, hc], by rw [hcv, hrv]⟩
  · -- a positive reserve cancels in the backed form
    rename_i hpos
    have hrpos : 0 < reserve.value := by
      rw [not_le_iff_lt, lt_iff_value_lt, value_zero] at hpos
      exact hpos
    obtain ⟨share, backed, capacity, v, hs, hb, hcap, hv, hvv⟩ :=
      backed_insurance_exact hrpos ha hscale hshare hprod
    obtain ⟨c, hc, hcv⟩ := ceil_exact (d := v) (by rw [hvv]; positivity)
    refine ⟨c, ?_, by rw [hcv, hvv]⟩
    rw [hs, Except.ok_bind]
    simp only [hb, hcap, Except.ok_bind, hv]
    exact hc

/-- A reserve of 1000 and an amount of 1.5 give an insurance of `⌈13.5⌉ = 14`. -/
theorem insurance_of_one_and_a_half :
    ∃ c, insuranceAmount (ofNat 1000) ⟨15, 1, false, by decide, by decide⟩ = .ok c ∧
      c.value = 14 := by
  obtain ⟨c, hc, hcv⟩ := @insurance_eq_ceil_nine_amount (ofNat 1000)
    ⟨15, 1, false, by decide, by decide⟩ (by rw [value_mk]; positivity)
    (by decide) (by decide)
  have hceil : ⌈(9 : ℚ) * ((15 : Nat) / 10 ^ 1)⌉ = 14 := by
    rw [Int.ceil_eq_iff]
    norm_num
  refine ⟨c, hc, ?_⟩
  rw [hcv, value_mk, hceil]
  norm_num

/-- A reserve written with 28 places loses digits in both of its products, and the
insurance on 1 is 5 instead of 9. -/
example : (insuranceAmount ⟨6, 28, false, by decide, by decide⟩ one).map Decimal.mantissa =
    .ok 5 := by
  rfl

end Insurance

/-! ## Eligibility follows the true price drop -/

section Eligibility

variable {closed opening : Decimal}

/-- A fall in price, or no change, is reported exactly, in percent, when the difference of
the prices and the relative change are decimals: a relative fall is at most one, so the
percentage is one as well. -/
theorem percentPriceChange_of_fall (hopen : opening.mantissa ≠ 0) (ho : 0 ≤ opening.value)
    (hc : 0 ≤ closed.value) (hle : closed.value ≤ opening.value)
    (hdiff : Representable (closed.value - opening.value))
    (hratio : Representable ((closed.value - opening.value) / opening.value)) :
    ∃ change, percentPriceChange closed opening = .ok change ∧
      change.value = (closed.value - opening.value) / opening.value * 100 := by
  have hopos := value_pos_of_nonneg ho hopen
  obtain ⟨d, hd⟩ := hdiff
  obtain ⟨diff, hsub, hdv⟩ := sub?_exact hc ho hd.symm
  obtain ⟨r, hr⟩ := hratio
  obtain ⟨q, hq, hqv⟩ := div?_exact (a := diff) (b := opening) (d := r) hopen
    (by rw [hdv, hd, hr])
  have habs : |q.value| ≤ 1 := by
    rw [hqv, hr, abs_le, le_div_iff₀ hopos, div_le_one hopos]
    constructor <;> linarith
  obtain ⟨p, hp⟩ := representable_mul_hundred habs
  obtain ⟨change, hm, hcv⟩ := mul?_exact (a := q) (b := hundred) (d := p)
    (by rw [value_hundred, hp])
  refine ⟨change, ?_, by rw [hcv, hp, hqv, hr]⟩
  have hz : opening.isZero = false := by simp [isZero, hopen]
  simp only [percentPriceChange, hz, Bool.false_eq_true, if_false, sub, orOverflow, hsub,
    Except.ok_bind, hq, Option.bind_some, hm]
  rfl

/-- A rise in price is never reported as a fall. -/
theorem percentPriceChange_of_rise (hopen : opening.mantissa ≠ 0) (ho : 0 ≤ opening.value)
    (hlt : opening.value < closed.value)
    (hdiff : Representable (closed.value - opening.value))
    (hratio : Representable ((closed.value - opening.value) / opening.value)) :
    ∃ change, percentPriceChange closed opening = .ok change ∧ 0 ≤ change.value := by
  have hopos := value_pos_of_nonneg ho hopen
  obtain ⟨d, hd⟩ := hdiff
  obtain ⟨diff, hsub, hdv⟩ := sub?_exact (hopos.le.trans hlt.le) ho hd.symm
  obtain ⟨r, hr⟩ := hratio
  obtain ⟨q, hq, hqv⟩ := div?_exact (a := diff) (b := opening) (d := r) hopen
    (by rw [hdv, hd, hr])
  have hq0 : 0 ≤ q.value := by
    rw [hqv, hr]
    exact div_nonneg (by linarith) ho
  have hz : opening.isZero = false := by simp [isZero, hopen]
  have hrise : opening < closed := lt_iff_value_lt.mpr hlt
  -- a product out of range gives the sentinel of a rise
  cases hm : q.mul? hundred with
  | none =>
    refine ⟨priceChangeSentinel, ?_, by simp [value, signed, priceChangeSentinel]⟩
    simp only [percentPriceChange, hz, Bool.false_eq_true, if_false, sub, orOverflow, hsub,
      Except.ok_bind, hq, Option.bind_some, hm, hrise, if_true]
    rfl
  | some change =>
    refine ⟨change, ?_, mul?_nonneg hq0 (by simp) hm⟩
    simp only [percentPriceChange, hz, Bool.false_eq_true, if_false, sub, orOverflow, hsub,
      Except.ok_bind, hq, Option.bind_some, hm]
    rfl

/-- With no opening price the change is zero or the sentinel of a rise. -/
theorem percentPriceChange_of_zero_opening (hopen : opening.mantissa = 0)
    (hc : 0 ≤ closed.value) :
    ∃ change, percentPriceChange closed opening = .ok change ∧ 0 ≤ change.value := by
  by_cases hcz : closed.mantissa = 0
  · refine ⟨zero, ?_, by simp⟩
    simp [percentPriceChange, isZero, hopen, hcz]
  · refine ⟨priceChangeSentinel, ?_, by simp [value, signed, priceChangeSentinel]⟩
    simp [percentPriceChange, isZero, hopen, hcz, negative_of_value_nonneg hc hcz]

/-- The change lies below the coating taken negatively exactly when the closing price lies
below the opening price less the coating, when the difference and the relative change are
decimals. -/
theorem percentPriceChange_below_iff {coating : Decimal} (ho : 0 ≤ opening.value)
    (hc : 0 ≤ closed.value) (hcoat : 0 ≤ coating.value)
    (hdiff : Representable (closed.value - opening.value))
    (hratio : Representable ((closed.value - opening.value) / opening.value)) :
    ∃ change, percentPriceChange closed opening = .ok change ∧
      (change.value < -coating.value ↔ closed.value < opening.value * (1 - coating.value / 100)) := by
  -- a change that is not negative is no fall, and a price that did not fall did not drop
  have hrise : ∀ change : Decimal, 0 ≤ change.value → opening.value ≤ closed.value →
      (change.value < -coating.value ↔
        closed.value < opening.value * (1 - coating.value / 100)) := by
    intro change hch hle
    have hcoat' : 0 ≤ opening.value * coating.value := mul_nonneg ho hcoat
    constructor <;> intro h <;> nlinarith
  by_cases hz : opening.mantissa = 0
  · obtain ⟨change, hpc, hch⟩ := percentPriceChange_of_zero_opening hz hc
    exact ⟨change, hpc, hrise change hch (by rw [value_of_mantissa_zero hz]; exact hc)⟩
  · rcases le_or_gt closed.value opening.value with hle | hlt
    · obtain ⟨change, hpc, hcv⟩ := percentPriceChange_of_fall hz ho hc hle hdiff hratio
      have hopos := value_pos_of_nonneg ho hz
      refine ⟨change, hpc, ?_⟩
      rw [hcv, div_mul_eq_mul_div, div_lt_iff₀ hopos]
      constructor <;> intro h <;> linarith
    · obtain ⟨change, hpc, hch⟩ := percentPriceChange_of_rise hz ho hlt hdiff hratio
      exact ⟨change, hpc, hrise change hch hlt.le⟩

theorem insurance_eligible_iff_price_drop (p : Pool) (st : Stake) {closed : Decimal}
    (hclosed : st.closePrice = some closed) (hc : 0 ≤ closed.value)
    (ho : 0 ≤ st.openPrice.value) (hcoat : 0 ≤ p.coatingPercent.value)
    (hdiff : Representable (closed.value - st.openPrice.value))
    (hratio : Representable ((closed.value - st.openPrice.value) / st.openPrice.value)) :
    (∃ eligible, isInsuranceEligible p st = .ok eligible ∧
      (eligible = true ↔
        closed.value < st.openPrice.value * (1 - p.coatingPercent.value / 100))) ∧
    ∀ t sid kind payout debit u, ClaimChecks t sid kind st p payout debit u →
      (kind = .insurance ↔
        closed.value < st.openPrice.value * (1 - p.coatingPercent.value / 100)) := by
  obtain ⟨change, hpc, hiff⟩ := percentPriceChange_below_iff ho hc hcoat hdiff hratio
  have helig : isInsuranceEligible p st = .ok (decide (change < p.coatingPercent.neg)) := by
    simp only [isInsuranceEligible, stakePriceChange, hclosed, hpc]
    rfl
  have hdecide : decide (change < p.coatingPercent.neg) = true ↔
      closed.value < st.openPrice.value * (1 - p.coatingPercent.value / 100) := by
    rw [decide_eq_true_iff, lt_iff_value_lt, value_neg]
    exact hiff
  refine ⟨⟨_, helig, hdecide⟩, ?_⟩
  intro t sid kind payout debit u hck
  -- the checks admit the kind that eligibility names
  have hkind : (kind == .insurance) = decide (change < p.coatingPercent.neg) :=
    Except.ok.inj (hck.eligible.symm.trans helig)
  rw [← hdecide, ← hkind, beq_iff_eq]

/-- A stake opened at 4 and closed at 2 lost half its price, past a coating of ten percent:
it is eligible for insurance. -/
theorem halved_price_is_eligible :
    ∃ eligible, isInsuranceEligible
      (NewPool.toPool ⟨1, ofNat 1000, "", "", ofNat 2, 1, ofNat 10⟩ ⟨0, 0⟩)
      ((Stake.opening 1 1 (ofNat 5) (ofNat 4) 1 ⟨0, 0⟩).closedAt ⟨86400, 0⟩ (ofNat 2)) =
        .ok eligible ∧ eligible = true := by
  have h2 : (ofNat 2).value = 2 := value_ofNat (by decide)
  have h4 : (ofNat 4).value = 4 := value_ofNat (by decide)
  have h10 : (ofNat 10).value = 10 := value_ofNat (by decide)
  obtain ⟨⟨e, he, hiff⟩, -⟩ := @insurance_eligible_iff_price_drop
    (NewPool.toPool ⟨1, ofNat 1000, "", "", ofNat 2, 1, ofNat 10⟩ ⟨0, 0⟩)
    ((Stake.opening 1 1 (ofNat 5) (ofNat 4) 1 ⟨0, 0⟩).closedAt ⟨86400, 0⟩ (ofNat 2))
    (ofNat 2) rfl (value_ofNat_nonneg 2) (value_ofNat_nonneg 4)
    (value_ofNat_nonneg 10)
    ⟨⟨2, 0, true, by decide, by decide⟩, by
      show _ = (ofNat 2).value - (ofNat 4).value
      rw [h2, h4]; simp [value, signed]; norm_num⟩
    ⟨⟨5, 1, true, by decide, by decide⟩, by
      show _ = ((ofNat 2).value - (ofNat 4).value) / (ofNat 4).value
      rw [h2, h4]; simp [value, signed]; norm_num⟩
  refine ⟨e, he, hiff.mpr ?_⟩
  show (ofNat 2).value < (ofNat 4).value * (1 - (ofNat 10).value / 100)
  rw [h2, h4, h10]
  norm_num

/-- A fall from 3 to 2 is a third, but the change is rounded to `-33.33…330` with 26 places
of three, and a coating of `33.33…333` with 27 of them lies below it: not eligible, although
`2 < 3 · (1 - 0.3333…333)`. -/
example : isInsuranceEligible
    (NewPool.toPool ⟨1, ofNat 1000, "", "", ofNat 2, 1,
      ⟨33333333333333333333333333333, 27, false, by decide, by decide⟩⟩ ⟨0, 0⟩)
    ((Stake.opening 1 1 (ofNat 1) (ofNat 3) 1 ⟨0, 0⟩).closedAt ⟨86400, 0⟩ (ofNat 2)) =
      .ok false := by
  rfl

end Eligibility

end PoolTreasury
