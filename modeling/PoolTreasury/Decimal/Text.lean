import PoolTreasury.Decimal.Arith

/-! # Reading decimals from text

`Decimal.parse?` reads an optional sign, digits with at most one point, and `_`
separators after the first digit. Digits beyond what the 96-bit mantissa or the 28 places
can hold are rounded away at the first digit that does not fit, half up; what follows
must be digits and separators, and does not count. Past the 28th place of a small
mantissa a separator counts as a zero digit, while a mantissa past `2^64 / 10` looks past
separators for the digit that rounds. `Decimal.parseScientific?`
reads `<decimal>e<exponent>`, with a positive exponent beyond the scale of at most 28.
`Decimal.read?` tries the plain form and then the scientific one.
-/

namespace PoolTreasury

/-- Why a text is not a decimal. -/
inductive DecimalTextError where
  | empty
  | noDigits
  | twoPoints
  | separatorFirst
  | unknownCharacter
  | tooManyDigits
  | roundingOverflow
  | malformedExponent
  | scaleTooLarge (scale : Nat)
  | tooLarge
deriving DecidableEq, Repr

def DecimalTextError.message : DecimalTextError → String
  | .empty => "Invalid decimal: empty"
  | .noDigits => "Invalid decimal: no digits found"
  | .twoPoints => "Invalid decimal: two decimal points"
  | .separatorFirst => "Invalid decimal: must start lead with a number"
  | .unknownCharacter => "Invalid decimal: unknown character"
  | .tooManyDigits => "Invalid decimal: overflow from too many digits"
  | .roundingOverflow => "Invalid decimal: overflow from mantissa after rounding"
  | .malformedExponent => "Failed to parse"
  | .scaleTooLarge s => "Scale exceeds the maximum precision allowed: " ++ toString s ++ " > 28"
  | .tooLarge => "Number exceeds maximum value that can be represented."

namespace Decimal

/-- The error for a character that cannot continue a decimal. -/
def badCharacter (c : Char) : DecimalTextError :=
  if c = '.' then .twoPoints else if c = '_' then .separatorFirst else .unknownCharacter

/-- The final decimal from an accumulated mantissa. -/
def ofAccumulated (negative seen : Bool) (m scale : Nat) : Except DecimalTextError Decimal :=
  if !seen then .error .noDigits
  else match ofPartsPositiveZero? m scale negative with
    | some d => .ok d
    | none => .error .tooManyDigits

/-- The first digit that does not fit decides: five or more rounds the mantissa up,
which may cost one more place. The text after it must hold only digits and separators. -/
def roundAt (negative : Bool) (m scale : Nat) (c : Char) (rest : List Char) :
    Except DecimalTextError Decimal :=
  let digit? : Option Nat :=
    if c.isDigit then some (c.toNat - '0'.toNat)
    else if c = '_' then some 0
    else none
  match digit?, rest.find? fun c => !(c.isDigit || c == '_') with
  | none, _ => .error (badCharacter c)
  | some _, some bad => .error (badCharacter bad)
  | some digit, none =>
    if digit ≥ 5 then
      let m := m + 1
      if m < mantissaBound then ofAccumulated negative true m scale
      else if scale = 0 then .error .roundingOverflow
      else ofAccumulated negative true ((m + 4) / 10) (scale - 1)
    else ofAccumulated negative true m scale

/-- Mantissas from this value on are read in the wide mode. -/
def wideFrom : Nat := 1844674407370954906

/-- The digits after the sign: `point` tells whether the point was passed, `seen` whether
a digit was, `wide` whether the mantissa has grown large. Once the 28th place is read
with text still to come, that text decides the rounding: its first character, or in the
wide mode its first character other than a separator. -/
def readDigits (negative : Bool) : List Char → Bool → Bool → Bool → Nat → Nat →
    Except DecimalTextError Decimal
  | [], _, seen, _, m, scale => ofAccumulated negative seen m scale
  | c :: rest, point, seen, wide, m, scale =>
    if c.isDigit then
      let m' := m * 10 + (c.toNat - '0'.toNat)
      let scale' := if point then scale + 1 else scale
      if m' ≥ mantissaBound then
        if point then roundAt negative m scale c rest else .error .tooManyDigits
      else match rest with
        | [] => ofAccumulated negative true m' scale'
        | next :: rest' =>
          if point && scale' ≥ maxScale then
            if wide then
              match rest.dropWhile (· == '_') with
              | [] => ofAccumulated negative true m' scale'
              | after :: more => roundAt negative m' scale' after more
            else roundAt negative m' scale' next rest'
          else readDigits negative rest point true (wide || m' ≥ wideFrom) m' scale'
    else if c = '.' && !point then readDigits negative rest true seen wide m scale
    else if c = '_' && seen then readDigits negative rest point seen wide m scale
    else .error (badCharacter c)

/-- A decimal in positional notation. -/
def parse? (s : String) : Except DecimalTextError Decimal :=
  match s.toList with
  | [] => .error .empty
  | '-' :: rest => readDigits true rest false false false 0 0
  | '+' :: rest => readDigits false rest false false false 0 0
  | cs => readDigits false cs false false false 0 0

/-- An unsigned exponent: digits, with an optional leading `+`. -/
def exponent? (s : String) : Option Nat :=
  let cs := match s.toList with
    | '+' :: rest => rest
    | cs => cs
  if cs.isEmpty || !cs.all Char.isDigit then none
  else
    let n := cs.foldl (fun n c => n * 10 + (c.toNat - '0'.toNat)) 0
    if n < 4294967296 then some n else none

/-- Ten to a power, as a decimal, for the powers the scientific reader multiplies by. -/
def powerOfTen (k : Nat) : Decimal := ofNat (10 ^ k)

/-- Multiplication by `10^k` in steps of at most `10^19`. -/
def scaleUp (d : Decimal) : Nat → Nat → Option Decimal
  | 0, _ => some d
  | fuel + 1, k =>
    if k = 0 then some d
    else if k ≥ 19 then (d.mul? (powerOfTen 19)).bind fun d => scaleUp d fuel (k - 19)
    else d.mul? (powerOfTen k)

/-- `<decimal>e<exponent>` or `<decimal>E<exponent>`: a negative exponent adds to the
scale, a positive one takes from it and multiplies by ten for what is left, and then the
trailing zeros are removed. -/
def parseScientific? (s : String) : Except DecimalTextError Decimal := do
  let cs := s.toList
  let base := String.ofList (cs.takeWhile fun c => c != 'e' && c != 'E')
  let rest := cs.dropWhile fun c => c != 'e' && c != 'E'
  match rest with
  | [] => .error .malformedExponent
  | _ :: expChars =>
    let d ← parse? base
    match expChars with
    | '-' :: digits =>
      match exponent? (String.ofList digits) with
      | none => .error .malformedExponent
      | some e =>
        if h : d.scale + e ≤ maxScale then .ok { d with scale := d.scale + e, scale_le := h }
        else .error (.scaleTooLarge (d.scale + e))
    | _ =>
      match exponent? (String.ofList expChars) with
      | none => .error .malformedExponent
      | some e =>
        if h : e ≤ d.scale then
          .ok { d with scale := d.scale - e, scale_le := by have := d.scale_le; omega }
        else if e > maxScale then .error (.scaleTooLarge e)
        else match scaleUp d (e / 19 + 2) e with
          | some r => .ok r.normalize
          | none => .error .tooLarge

/-- Positional notation first, then scientific notation. -/
def read? (s : String) : Option Decimal :=
  match parse? s with
  | .ok d => some d
  | .error _ =>
    match parseScientific? s with
    | .ok d => some d
    | .error _ => none

end Decimal

end PoolTreasury
