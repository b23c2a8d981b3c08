import PoolTreasury.Decimal.Rounding

/-! # Decimal arithmetic

Sums and products are exact whenever the exact result fits; otherwise as few digits as
needed are rounded away, half to even. A quotient carries as many digits as fit, at most
28 after the point, and the zeros that only this extension added are removed again.
An operation whose result cannot fit at scale 0 overflows.

The checked forms answer `none` on overflow; the plain forms report the overflow as an
`Overflow`, which the treasury treats as a failed computation.
-/

namespace PoolTreasury

/-- Why an arithmetic operation has no result. -/
inductive Overflow where
  | addition
  | subtraction
  | multiplication
  | division
  | divisionByZero
  /-- A date moved past the range of dates the clock represents. -/
  | dateAddition
deriving DecidableEq, Repr

def Overflow.message : Overflow → String
  | .addition => "Addition overflowed"
  | .subtraction => "Subtraction overflowed"
  | .multiplication => "Multiplication overflowed"
  | .division => "Division overflowed"
  | .divisionByZero => "Division by zero"
  | .dateAddition => "`DateTime + TimeDelta` overflowed"

namespace Decimal

/-- Mantissas below `2^32` take a short path in products. -/
def word : Nat := 4294967296

/-- The sum of `a` and `b`, or of `a` and `-b` when `subtract` holds. A zero operand gives
the other one back unchanged (negated when it is subtracted and not zero). Otherwise the
operands are aligned at the larger scale. The sign of the result is the sign of `a`,
unless `b` has the larger magnitude; a zero result is positive. -/
def combine (a b : Decimal) (subtract : Bool) : Option Decimal :=
  if a.mantissa = 0 then
    some (if subtract && b.mantissa != 0 then b.neg else b)
  else if b.mantissa = 0 then some a
  else
    let bNegative := if subtract then !b.negative else b.negative
    let s := Nat.max a.scale b.scale
    let ma := a.mantissa * 10 ^ (s - a.scale)
    let mb := b.mantissa * 10 ^ (s - b.scale)
    if a.negative == bNegative then fit? a.negative (ma + mb) s
    else if mb ≤ ma then fit? a.negative (ma - mb) s
    else fit? (!a.negative) (mb - ma) s

def add? (a b : Decimal) : Option Decimal := combine a b false
def sub? (a b : Decimal) : Option Decimal := combine a b true

/-- The product: scales add up. Two short mantissas whose scales add up past 47 give
the plain zero. -/
def mul? (a b : Decimal) : Option Decimal :=
  if a.mantissa = 0 || b.mantissa = 0 then some zero
  else
    let s := a.scale + b.scale
    let negative := a.negative != b.negative
    let p := a.mantissa * b.mantissa
    if a.mantissa < word && b.mantissa < word && s > maxScale + 19 then some zero
    else fit? negative p s

/-- The largest power of ten, at most `10^9` and not past scale 28, by which the partial
quotient `q` can grow and stay below the mantissa bound. `none` when even that leaves
the scale negative. -/
def quotientStep (q : Nat) (scale : Int) : Option Nat :=
  let fits (p : Nat) : Bool := q * 10 ^ p < mantissaBound
  if scale ≤ 19 && fits 9 then some 9
  else
    let top := if scale > 19 then (28 - scale).toNat else 8
    let p := ((List.range (top + 1)).reverse.find? fits).getD 0
    if (p : Int) + scale < 0 then none else some p

/-- A quotient that grew past the mantissa bound loses one digit, rounded half to even;
`sticky` tells that digits beyond that one were not zero. -/
def dropOverflowDigit (n : Nat) (scale : Int) (sticky : Bool) : Option (Nat × Int) :=
  if scale - 1 < 0 then none
  else
    let q := n / 10
    let r := n % 10
    some (if r > 5 || (r == 5 && (sticky || q % 2 == 1)) then q + 1 else q, scale - 1)

/-- The last quotient digit, rounded by the remainder `r` of division by `m`. -/
def roundQuotient (m q r : Nat) (scale : Int) : Option (Nat × Int) :=
  if 2 * r > m || (2 * r == m && q % 2 == 1) then
    if q + 1 < mantissaBound then some (q + 1, scale)
    else dropOverflowDigit (q + 1) scale true
  else some (q, scale)

/-- Long division by `m`: the quotient `q` with remainder `r` at `scale` gains digits while
the remainder is not zero, the scale is below 28 and the quotient has room. A negative
scale is first brought up to zero. The flag tells whether a remainder was ever seen. -/
def longDivision (m : Nat) : Nat → Nat → Nat → Int → Bool → Option (Nat × Int × Bool)
  | 0, _, _, _, _ => none
  | fuel + 1, q, r, scale, seen =>
    if r = 0 then
      if scale ≥ 0 then some (q, scale, seen)
      else
        let p := Nat.min 9 (-scale).toNat
        if q * 10 ^ p < mantissaBound then longDivision m fuel (q * 10 ^ p) 0 (scale + p) seen
        else none
    else if scale = 28 then
      (roundQuotient m q r scale).map fun (q, s) => (q, s, true)
    else
      match quotientStep q scale with
      | none => none
      | some 0 => (roundQuotient m q r scale).map fun (q, s) => (q, s, true)
      | some p =>
        let n := r * 10 ^ p
        let q' := q * 10 ^ p + n / m
        if q' < mantissaBound then longDivision m fuel q' (n % m) (scale + p) true
        else (dropOverflowDigit q' (scale + p) (n % m != 0)).map fun (q, s) => (q, s, true)

/-- Drops `k` trailing zeros when `q` has them and the scale allows. -/
def dropZeros (q scale k : Nat) : Nat × Nat :=
  if scale ≥ k && q % 10 ^ k = 0 then (q / 10 ^ k, scale - k) else (q, scale)

/-- Eight zeros at a time while the low 32 bits of the quotient are all zero. -/
def dropEights (q scale : Nat) : Nat → Nat × Nat
  | 0 => (q, scale)
  | fuel + 1 =>
    if q % 4294967296 = 0 && scale ≥ 8 && q % 100000000 = 0 then dropEights (q / 100000000) (scale - 8) fuel
    else (q, scale)

/-- Zeros that extending a quotient added are removed again: eight at a time while the
low 32 bits are zero, then at most four, two and one. A zero quotient or a quotient with
fewer zeros keeps the rest. -/
def stripZeros (q : Nat) (scale : Nat) : Nat × Nat :=
  if q = 0 then (q, scale)
  else
    let (q, s) := dropEights q scale 4
    let (q, s) := dropZeros q s 4
    let (q, s) := dropZeros q s 2
    dropZeros q s 1

/-- The quotient; `none` for a zero divisor or an overflow. A zero dividend gives the plain
zero. -/
def div? (a b : Decimal) : Option Decimal :=
  if b.mantissa = 0 then none
  else if a.mantissa = 0 then some zero
  else do
    let (q, s, seen) ← longDivision b.mantissa 64 (a.mantissa / b.mantissa)
      (a.mantissa % b.mantissa) ((a.scale : Int) - b.scale) false
    let (q, s) := if seen then stripZeros q s.toNat else (q, s.toNat)
    ofPartsPositiveZero? q s (a.negative != b.negative)

/-- A checked result, with the overflow it reports. -/
def orOverflow (o : Overflow) : Option Decimal → Except Overflow Decimal
  | some d => .ok d
  | none => .error o

def add (a b : Decimal) : Except Overflow Decimal := orOverflow .addition (a.add? b)
def sub (a b : Decimal) : Except Overflow Decimal := orOverflow .subtraction (a.sub? b)
def mul (a b : Decimal) : Except Overflow Decimal := orOverflow .multiplication (a.mul? b)

def div (a b : Decimal) : Except Overflow Decimal :=
  if b.mantissa = 0 then .error .divisionByZero else orOverflow .division (a.div? b)

/-- Rounded up to a whole number: the truncation, plus one for a positive value with a
fraction. -/
def ceil (d : Decimal) : Except Overflow Decimal :=
  if d.scale = 0 then .ok d
  else if !d.negative && d.hasFraction then d.trunc.add one
  else .ok d.trunc

/-- The sum of a list, from the plain zero. -/
def sumList : List Decimal → Except Overflow Decimal
  | [] => .ok zero
  | ds => ds.foldlM add zero

/-- Adding to zero gives the other operand back, scale and sign included. -/
@[simp] theorem zero_add_some (b : Decimal) : zero.add? b = some b := by
  simp [add?, combine, zero]

end Decimal

end PoolTreasury
