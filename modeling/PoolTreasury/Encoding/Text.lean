/-! # Text helpers

White space is the Unicode `White_Space` set, so that trimming removes the same
characters from either end whatever script the text is in. Signed byte numerals are
an optional sign and decimal digits, inside the range of a signed byte.
-/

namespace PoolTreasury

/-- Characters with the Unicode `White_Space` property. -/
def isWhiteSpace (c : Char) : Bool :=
  let n := c.toNat
  (9 ≤ n ∧ n ≤ 13) || n = 32 || n = 0x85 || n = 0xA0 || n = 0x1680 ||
    (0x2000 ≤ n ∧ n ≤ 0x200A) || n = 0x2028 || n = 0x2029 || n = 0x202F || n = 0x205F ||
    n = 0x3000

/-- `s` without white space at either end. -/
def trimWhite (s : String) : String :=
  String.ofList ((s.toList.dropWhile isWhiteSpace).reverse.dropWhile isWhiteSpace).reverse

def digitsValue? (cs : List Char) : Option Nat :=
  if cs.isEmpty then none
  else cs.foldl (fun acc c => acc.bind fun n =>
    if c.isDigit then some (10 * n + (c.toNat - 48)) else none) (some 0)

/-- A signed byte written in decimal, with an optional `+` or `-` in front. -/
def parseInt8? (s : String) : Option Int8 :=
  let (negative, digits) := match s.toList with
    | '-' :: rest => (true, rest)
    | '+' :: rest => (false, rest)
    | cs => (false, cs)
  match digitsValue? digits with
  | none => none
  | some n =>
    if negative then (if n ≤ 128 then some (Int8.ofInt (-(n : Int))) else none)
    else if n ≤ 127 then some (Int8.ofInt n) else none

end PoolTreasury
