import PoolTreasury.Decimal.Basic

/-! # Rounding decimals

`roundDiv n k` divides by `10^k` and rounds half to even: the quotient is within half a
unit of the exact one, and a tie goes to the even neighbour. Every operation that drops
digits, from a product that is too long to `roundDp`, goes through it.
-/

namespace PoolTreasury

/-- `n / 10^k`, rounded to the nearest integer, a tie to the even one. -/
def roundDiv (n k : Nat) : Nat :=
  let p := 10 ^ k
  let q := n / p
  let r := n % p
  if 2 * r > p ∨ (2 * r = p ∧ q % 2 = 1) then q + 1 else q

/-- Dropping no digit keeps the number. -/
@[simp] theorem roundDiv_zero (n : Nat) : roundDiv n 0 = n := by
  simp [roundDiv]; omega

/-- The rounded quotient is the truncated one or the next. -/
theorem roundDiv_cases (n k : Nat) :
    roundDiv n k = n / 10 ^ k ∨ roundDiv n k = n / 10 ^ k + 1 := by
  simp only [roundDiv]
  split <;> simp

/-- The least number of digits, at least `least` and at most `scale`, that `n` must lose so
that its rounded quotient is below the mantissa bound, with that quotient. -/
def shrinkDigits (n scale least : Nat) : Option (Nat × Nat) :=
  ((List.range (scale + 1 - least)).map (· + least)).findSome? fun k =>
    let q := roundDiv n k
    if q < mantissaBound then some (q, scale - k) else none

namespace Decimal

/-- A sign, a mantissa of any size and a scale of any size, brought into range by rounding
away as few digits as needed; `none` when even scale 0 does not fit. The sign of a zero
result is dropped. -/
def fit? (negative : Bool) (n scale : Nat) : Option Decimal := do
  let (m, s) ← shrinkDigits n scale (scale - maxScale)
  ofPartsPositiveZero? m s negative

/-- Digits after the point dropped: the result has scale 0 and keeps the sign, also of a
zero. -/
def trunc (d : Decimal) : Decimal :=
  ⟨d.mantissa / 10 ^ d.scale, 0, d.negative,
    Nat.lt_of_le_of_lt (Nat.div_le_self _ _) d.mantissa_lt, Nat.zero_le _⟩

/-- The fraction is not zero. -/
def hasFraction (d : Decimal) : Bool := d.mantissa % 10 ^ d.scale != 0

/-- Rounded to `dp` places, half to even; a decimal with fewer places is kept. A zero keeps
its sign, while a value that rounds to zero loses it. -/
def roundDp (d : Decimal) (dp : Nat) : Decimal :=
  if h : d.scale ≤ dp then d
  else
    let m := roundDiv d.mantissa (d.scale - dp)
    let negative := if d.mantissa = 0 then d.negative else d.negative && m != 0
    if hm : m < mantissaBound then
      ⟨m, dp, negative, hm, by have := d.scale_le; omega⟩
    else d

/-- Trailing zeros after the point removed; a zero becomes the plain `0`. -/
def normalize (d : Decimal) : Decimal :=
  if d.mantissa = 0 then zero
  else
    let k := ((List.range (d.scale + 1)).reverse.find? fun k => d.mantissa % 10 ^ k = 0).getD 0
    ⟨d.mantissa / 10 ^ k, d.scale - k, d.negative,
      Nat.lt_of_le_of_lt (Nat.div_le_self _ _) d.mantissa_lt,
      by have := d.scale_le; omega⟩

@[simp] theorem trunc_scale (d : Decimal) : d.trunc.scale = 0 := rfl

end Decimal

end PoolTreasury
