import PoolTreasury.Prelude

/-! # Fixed-point decimals

A decimal is a sign, a mantissa below `2^96` and a scale from 0 to 28: its value is
`±mantissa / 10^scale`. The scale is part of the value's identity, so `10.0` and `10`
are different decimals that compare equal. The sign is kept even on a zero mantissa,
because some operations produce a negative zero and print it as `-0`.
-/

namespace PoolTreasury

/-- Mantissas stay below this bound, `2^96`. -/
def mantissaBound : Nat := 79228162514264337593543950336

theorem mantissaBound_eq : mantissaBound = 2 ^ 96 := by decide

/-- The largest scale a decimal carries. -/
def maxScale : Nat := 28

structure Decimal where
  mantissa : Nat
  scale : Nat
  negative : Bool
  mantissa_lt : mantissa < mantissaBound
  scale_le : scale ≤ maxScale
deriving DecidableEq, Repr

namespace Decimal

/-- A decimal from its parts, when they are in range. -/
def ofParts? (mantissa scale : Nat) (negative : Bool) : Option Decimal :=
  if hm : mantissa < mantissaBound then
    if hs : scale ≤ maxScale then some ⟨mantissa, scale, negative, hm, hs⟩ else none
  else none

/-- Building from parts drops the sign of a zero mantissa. -/
def ofPartsPositiveZero? (mantissa scale : Nat) (negative : Bool) : Option Decimal :=
  ofParts? mantissa scale (negative && mantissa != 0)

/-- A whole number below the mantissa bound. -/
def ofNatBelow (n : Nat) (h : n < mantissaBound) : Decimal := ⟨n, 0, false, h, by decide⟩

def zero : Decimal := ⟨0, 0, false, by decide, by decide⟩
def one : Decimal := ⟨1, 0, false, by decide, by decide⟩
def ten : Decimal := ⟨10, 0, false, by decide, by decide⟩
def hundred : Decimal := ⟨100, 0, false, by decide, by decide⟩

/-- A natural number as a decimal of scale 0, saturating at the largest mantissa. -/
def ofNat (n : Nat) : Decimal :=
  if h : n < mantissaBound then ⟨n, 0, false, h, by decide⟩
  else ⟨mantissaBound - 1, 0, false, by decide, by decide⟩

def isZero (d : Decimal) : Bool := d.mantissa == 0

/-- Negation flips the sign, also of a zero. -/
def neg (d : Decimal) : Decimal := { d with negative := !d.negative }

/-- The mantissa with its sign. -/
def signed (d : Decimal) : Int := if d.negative then -(d.mantissa : Int) else d.mantissa

/-- The signed mantissa brought to the finer scale `s`. -/
def signedAt (d : Decimal) (s : Nat) : Int := d.signed * (10 ^ (s - d.scale) : Nat)

/-- Numeric order: the values are compared at their common scale, and every zero is equal. -/
def compare (a b : Decimal) : Ordering :=
  let s := max a.scale b.scale
  Ord.compare (a.signedAt s) (b.signedAt s)

instance : LT Decimal := ⟨fun a b => a.compare b = .lt⟩
instance : LE Decimal := ⟨fun a b => a.compare b ≠ .gt⟩

instance (a b : Decimal) : Decidable (a < b) :=
  inferInstanceAs (Decidable (a.compare b = .lt))
instance (a b : Decimal) : Decidable (a ≤ b) :=
  inferInstanceAs (Decidable (a.compare b ≠ .gt))

/-- Numeric equality, as opposed to the equality of representations. -/
def sameValue (a b : Decimal) : Bool := a.compare b == .eq

/-- The larger value; on a tie, the left operand. -/
def max (a b : Decimal) : Decimal := if a < b then b else a

/-- The smaller value; on a tie, the left operand. -/
def min (a b : Decimal) : Decimal := if b < a then b else a

/-- The value is below zero. -/
def isNegativeValue (d : Decimal) : Bool := d.negative && d.mantissa != 0

/-- Positional text: the mantissa's digits, with the point placed `scale` digits from
the right, at least one digit before it, and a leading minus for a negative sign. -/
def render (d : Decimal) : String :=
  let digits := if d.mantissa = 0 then [] else Nat.toDigits 10 d.mantissa
  let padded := List.replicate (d.scale - digits.length) '0' ++ digits
  let whole := padded.take (padded.length - d.scale)
  let frac := padded.drop (padded.length - d.scale)
  let body :=
    if d.scale = 0 then (if whole.isEmpty then "0" else String.ofList whole)
    else (if whole.isEmpty then "0" else String.ofList whole) ++ "." ++ String.ofList frac
  (if d.negative then "-" else "") ++ body

instance : ToString Decimal := ⟨render⟩

@[simp] theorem neg_neg (d : Decimal) : d.neg.neg = d := by
  cases d; simp [neg]

theorem signedAt_self (d : Decimal) : d.signedAt d.scale = d.signed := by
  simp [signedAt]

end Decimal

end PoolTreasury
