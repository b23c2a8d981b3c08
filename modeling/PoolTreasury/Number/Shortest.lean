import PoolTreasury.Prelude

/-! # Shortest decimal text of a binary64 value

A finite double is `±m · 2^e`. Every real strictly between the midpoints to its two
neighbours reads back as the same double, and so do the midpoints themselves when `m` is
even. `Float.shortest` finds the fewest significant digits that land in that interval,
testing for each digit count the two grid points around the value, in exact `Nat`
arithmetic; of two hits the nearer wins, and an exact tie goes to the even digit string.

Two layouts print those digits: `renderScientific` switches to an exponent outside
`[1e-5, 1e16)` and always writes a point, `renderPositional` never uses an exponent and
writes whole numbers without a point.
-/

namespace PoolTreasury

/-- A double taken apart: `(-1)^negative · mantissa · 2^exponent`. -/
structure BinaryParts where
  negative : Bool
  mantissa : Nat
  exponent : Int
  /-- The lower neighbour is closer, as at a power of two above the smallest normal. -/
  narrowBelow : Bool
deriving Repr

namespace BinaryParts

def ofFloat (f : Float) : BinaryParts :=
  let bits : Nat := f.toBits.toNat
  let biased : Nat := (bits / 2 ^ 52) % 2048
  let fraction : Nat := bits % 2 ^ 52
  let negative := bits / 2 ^ 63 = 1
  if biased = 0 then ⟨negative, fraction, -1074, false⟩
  else ⟨negative, fraction + 2 ^ 52, (biased : Int) - 1075, fraction = 0 && biased > 1⟩

/-- Scale factors that make the value and its interval whole: value·4·`up`/`down`. -/
def up (b : BinaryParts) : Nat := 2 ^ (b.exponent - 2).toNat
def down (b : BinaryParts) : Nat := 2 ^ (2 - b.exponent).toNat

/-- Numerators, over `down` and times `up`, of the value and the interval's ends. -/
def center (b : BinaryParts) : Nat := 4 * b.mantissa
def low (b : BinaryParts) : Nat := if b.narrowBelow then 4 * b.mantissa - 1 else 4 * b.mantissa - 2
def high (b : BinaryParts) : Nat := 4 * b.mantissa + 2

/-- `d · 10^k` against `n · up / down`. -/
def compareGrid (b : BinaryParts) (d : Nat) (k : Int) (n : Nat) : Ordering :=
  if k ≥ 0 then Ord.compare (d * 10 ^ k.toNat * b.down) (n * b.up)
  else Ord.compare (d * b.down) (n * b.up * 10 ^ (-k).toNat)

/-- `d · 10^k` reads back as this double. -/
def inside (b : BinaryParts) (d : Nat) (k : Int) : Bool :=
  let even := b.mantissa % 2 = 0
  let aboveLow := match b.compareGrid d k b.low with
    | .gt => true
    | .eq => even
    | .lt => false
  let belowHigh := match b.compareGrid d k b.high with
    | .lt => true
    | .eq => even
    | .gt => false
  aboveLow && belowHigh

/-- `⌊value / 10^k⌋`. -/
def floorAt (b : BinaryParts) (k : Int) : Nat :=
  if k ≥ 0 then (b.center * b.up) / (10 ^ k.toNat * b.down)
  else (b.center * b.up * 10 ^ (-k).toNat) / b.down

/-- The decimal exponent of the leading digit: `10^E ≤ value < 10^(E+1)`. -/
def leadingExponent (b : BinaryParts) : Int :=
  let whole := b.floorAt 0
  if whole > 0 then ((Nat.toDigits 10 whole).length : Int) - 1
  else
    let j := ((List.range 400).find? fun (j : Nat) => b.floorAt (-((j : Int) + 1)) > 0).getD 0
    Int.neg ((j : Int) + 1)

/-- Of the grid points `d` and `d + 1` at `10^k`, the one to take, if either reads back. -/
def pick (b : BinaryParts) (k : Int) : Option Nat :=
  let d := b.floorAt k
  let lowIn := b.inside d k
  let highIn := b.inside (d + 1) k
  if lowIn && highIn then
    -- compare the distances: value − d·10^k against (d+1)·10^k − value
    match b.compareGrid (2 * d + 1) k (2 * b.center) with
    | .gt => some d
    | .lt => some (d + 1)
    | .eq => some (if d % 2 = 0 then d else d + 1)
  else if lowIn then some d
  else if highIn then some (d + 1)
  else none

/-- Trailing zeros of a digit string moved into its exponent. -/
def trimZeros (d : Nat) (k : Int) : Nat × Int :=
  let z := ((List.range 20).reverse.find? fun z => d % 10 ^ z = 0).getD 0
  (d / 10 ^ z, k + z)

/-- The fewest significant digits that read back, as digits and the exponent of the last. -/
def shortest (b : BinaryParts) : Nat × Int :=
  if b.mantissa = 0 then (0, 0)
  else
    let e := b.leadingExponent
    let found := (List.range 17).findSome? fun (n : Nat) =>
      let k := e - (n : Int)
      (b.pick k).map fun d => trimZeros d k
    found.getD (b.floorAt (e - 16), e - 16)

end BinaryParts

/-- Digits `ds` with the point `at` digits from the left, padded with zeros as needed. -/
def placePoint (ds : List Char) (pointAt : Int) : String :=
  if pointAt ≤ 0 then "0." ++ String.ofList (List.replicate (-pointAt).toNat '0' ++ ds)
  else if pointAt.toNat ≥ ds.length then
    String.ofList (ds ++ List.replicate (pointAt.toNat - ds.length) '0')
  else String.ofList (ds.take pointAt.toNat) ++ "." ++ String.ofList (ds.drop pointAt.toNat)

namespace Float

/-- Shortest text with an exponent outside `[1e-5, 1e16)`: `1.5`, `100.0`, `1e-7`,
`1.234e20`; zero is `0.0`. -/
def renderScientific (f : Float) : String :=
  let b := BinaryParts.ofFloat f
  let sign := if b.negative then "-" else ""
  if b.mantissa = 0 then sign ++ "0.0"
  else
    let (d, k) := b.shortest
    let ds := Nat.toDigits 10 d
    let len : Int := ds.length
    let kk := k + len
    let body :=
      if 0 ≤ k && kk ≤ 16 then String.ofList ds ++ String.ofList (List.replicate k.toNat '0') ++ ".0"
      else if 0 < kk && kk ≤ 16 then placePoint ds kk
      else if -5 < kk && kk ≤ 0 then placePoint ds kk
      else
        let exp := kk - 1
        let mant := match ds with
          | [c] => String.ofList [c]
          | c :: rest => String.ofList [c] ++ "." ++ String.ofList rest
          | [] => "0"
        mant ++ "e" ++ toString exp
    sign ++ body

/-- Shortest text without an exponent; whole numbers carry no point: `2.5`, `10`,
`0.0000001`. -/
def renderPositional (f : Float) : String :=
  let b := BinaryParts.ofFloat f
  let sign := if b.negative then "-" else ""
  if b.mantissa = 0 then sign ++ "0"
  else
    let (d, k) := b.shortest
    let ds := Nat.toDigits 10 d
    sign ++ placePoint ds (k + ds.length)

end Float

end PoolTreasury
