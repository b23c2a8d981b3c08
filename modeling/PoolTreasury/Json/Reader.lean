import PoolTreasury.Json.Value

/-! # Reading JSON text: the lexical layer

The reader walks the UTF-8 bytes of a text with an index. An error names what went wrong
and where: the line, and the column counted in bytes from the start of that line. Some
errors are noticed at the byte already read, others at the byte about to be read; the
two functions `JsonError.seen` and `JsonError.ahead` make the difference. An error raised
while interpreting a value already read carries no place yet; the enclosing value
supplies it (`JsonError.placed`).

Numbers follow the usual reading: digits that fit in 64 bits stay whole, a negative
whole number stays whole if it fits in 64 signed bits, anything else becomes a double
computed from a 64-bit significand and a power of ten.
-/

namespace PoolTreasury

/-- A reading error; line 0 means the place is not known yet. -/
structure JsonError where
  message : String
  line : Nat := 0
  column : Nat := 0
deriving Repr, Inhabited

namespace JsonError

def render (e : JsonError) : String :=
  if e.line = 0 then e.message
  else e.message ++ " at line " ++ toString e.line ++ " column " ++ toString e.column

/-- Line and column of the place after the first `i` bytes. -/
def place (src : ByteArray) (i : Nat) : Nat × Nat :=
  let before := (src.extract 0 i).toList
  let lines := before.foldl (fun (acc : Nat × Nat) b =>
    if b = 10 then (acc.1 + 1, 0) else (acc.1, acc.2 + 1)) (1, 0)
  lines

/-- An error noticed after the first `i` bytes were read. -/
def seen (src : ByteArray) (i : Nat) (message : String) : JsonError :=
  let (l, c) := place src i
  ⟨message, l, c⟩

/-- An error noticed at the byte after the first `i`. -/
def ahead (src : ByteArray) (i : Nat) (message : String) : JsonError :=
  seen src (Nat.min (i + 1) src.size) message

/-- A place for an error that has none yet. -/
def placed (src : ByteArray) (i : Nat) (e : JsonError) : JsonError :=
  if e.line = 0 then seen src i e.message else e

end JsonError

/-- A reading step: a value and the index after it, or an error and the index where
reading stopped. -/
abbrev Step (α : Type) := Except (JsonError × Nat) (α × Nat)

namespace JsonText

def byteAt (src : ByteArray) (i : Nat) : Option UInt8 :=
  if h : i < src.size then some src[i] else none

def isBlank (b : UInt8) : Bool := b == 32 || b == 9 || b == 10 || b == 13

def isDigitByte (b : UInt8) : Bool := 48 ≤ b && b ≤ 57

/-- The index of the first byte from `i` on that is not a blank. -/
def skipBlanks (src : ByteArray) (i : Nat) : Nat :=
  if h : i < src.size then
    if isBlank src[i] then skipBlanks src (i + 1) else i
  else i
termination_by src.size - i

/-- Digits from `i` on, skipped. -/
def skipDigits (src : ByteArray) (i : Nat) : Nat :=
  if h : i < src.size then
    if isDigitByte src[i] then skipDigits src (i + 1) else i
  else i
termination_by src.size - i

def fail {α : Type} (e : JsonError) (i : Nat) : Step α := .error (e, i)

/-- The rest of a keyword whose first byte was read. -/
def keyword (src : ByteArray) (i : Nat) (rest : List UInt8) : Step Unit :=
  match rest with
  | [] => .ok ((), i)
  | b :: more =>
    match byteAt src i with
    | none => fail (.seen src i "EOF while parsing a value") i
    | some c =>
      if c == b then keyword src (i + 1) more
      else fail (.seen src (i + 1) "expected ident") (i + 1)

/-- Powers of ten as doubles, correctly rounded. -/
def powerOfTen (k : Nat) : Float := Float.ofScientific 1 false k

/-- `significand · 10^exponent` by one multiplication or division where the power is
within the table, dividing by `1e308` first for smaller exponents; `none` when the
result is infinite. -/
def doubleOf (positive : Bool) (significand : Nat) (exponent : Int) : Option Float :=
  let f := Float.ofNat significand
  let rec go : Nat → Float → Int → Option Float
    | 0, f, _ => some f
    | fuel + 1, f, e =>
      if e.natAbs ≤ 308 then
        if e ≥ 0 then
          let g := f * powerOfTen e.natAbs
          if g.isInf then none else some g
        else some (f / powerOfTen e.natAbs)
      else if f == 0 then some f
      else if e ≥ 0 then none
      else go fuel (f / powerOfTen 308) (e + 308)
  (go 8 f exponent).map fun g => if positive then g else -g

def u64Max : Nat := 18446744073709551615

/-- The significand would leave 64 bits with one more digit. -/
def wouldOverflow (significand digit : Nat) : Bool :=
  significand ≥ u64Max / 10 && (significand > u64Max / 10 || digit > u64Max % 10)

def digitValue (b : UInt8) : Nat := b.toNat - 48

/-- A double from its parts; an infinite one is out of range. -/
def finishDouble (src : ByteArray) (i : Nat) (positive : Bool) (significand : Nat)
    (exponent : Int) : Step JsonNumber :=
  match doubleOf positive significand exponent with
  | some f => .ok (.double f, i)
  | none => fail (.seen src i "number out of range") i

/-- Digits of an exponent, after `e` and its sign. -/
def exponentDigits (src : ByteArray) (i : Nat) (e : Nat) : Nat × Nat × Bool :=
  if h : i < src.size then
    let b := src[i]
    if isDigitByte b then
      if e ≥ 214748364 && (e > 214748364 || digitValue b > 7) then (i + 1, e, true)
      else exponentDigits src (i + 1) (e * 10 + digitValue b)
    else (i, e, false)
  else (i, e, false)
termination_by src.size - i

/-- The exponent part, from the `e`. -/
def readExponent (src : ByteArray) (i : Nat) (positive : Bool) (significand : Nat)
    (start : Int) : Step JsonNumber :=
  let i := i + 1
  let (positiveExp, i) := match byteAt src i with
    | some 43 => (true, i + 1)
    | some 45 => (false, i + 1)
    | _ => (true, i)
  match byteAt src i with
  | none => fail (.seen src i "EOF while parsing a value") i
  | some b =>
    if !isDigitByte b then fail (.seen src (i + 1) "invalid number") (i + 1)
    else
      let (j, e, overflow) := exponentDigits src (i + 1) (digitValue b)
      if overflow then
        if significand != 0 && positiveExp then fail (.seen src j "number out of range") j
        else
          let j := skipDigits src j
          .ok (.double (if positive then 0 else -0.0), j)
      else
        let exp := if positiveExp then start + e else start - e
        finishDouble src j positive significand exp

/-- Digits after the point; digits that no longer fit in 64 bits are skipped. -/
def fractionDigits (src : ByteArray) (i : Nat) (significand : Nat) (count : Nat) (full : Bool) :
    Nat × Nat × Nat :=
  if h : i < src.size then
    let b := src[i]
    if isDigitByte b then
      if full || wouldOverflow significand (digitValue b) then
        fractionDigits src (i + 1) significand count true
      else fractionDigits src (i + 1) (significand * 10 + digitValue b) (count + 1) false
    else (i, significand, count)
  else (i, significand, count)
termination_by src.size - i

/-- The fraction part, from the point. -/
def readFraction (src : ByteArray) (i : Nat) (positive : Bool) (significand : Nat)
    (start : Int) : Step JsonNumber :=
  let i := i + 1
  match byteAt src i with
  | none => fail (.ahead src i "EOF while parsing a value") i
  | some b =>
    if !isDigitByte b then fail (.ahead src i "invalid number") i
    else
      let (j, significand, count) := fractionDigits src i significand 0 false
      let exp := start - count
      match byteAt src j with
      | some 101 | some 69 => readExponent src j positive significand exp
      | _ => finishDouble src j positive significand exp

/-- Digits of the integer part beyond 64 bits: each one only raises the exponent. -/
def longDigits (src : ByteArray) (i : Nat) (extra : Nat) : Nat × Nat :=
  if h : i < src.size then
    if isDigitByte src[i] then longDigits src (i + 1) (extra + 1) else (i, extra)
  else (i, extra)
termination_by src.size - i

/-- After the integer part: a fraction, an exponent, or the end of the number. -/
def afterInteger (src : ByteArray) (i : Nat) (positive : Bool) (significand : Nat) :
    Step JsonNumber :=
  match byteAt src i with
  | some 46 => readFraction src i positive significand 0
  | some 101 | some 69 => readExponent src i positive significand 0
  | _ =>
    if positive then .ok (.nat significand, i)
    else if significand = 0 || significand > 9223372036854775808 then
      .ok (.double (-(Float.ofNat significand)), i)
    else .ok (.negative significand, i)

/-- Integer digits after the first, while they fit in 64 bits. -/
def integerDigits (src : ByteArray) (i : Nat) (positive : Bool) (significand : Nat) :
    Step JsonNumber :=
  if h : i < src.size then
    let b := src[i]
    if isDigitByte b then
      if wouldOverflow significand (digitValue b) then
        let (j, extra) := longDigits src i 0
        match byteAt src j with
        | some 46 => readFraction src j positive significand extra
        | some 101 | some 69 => readExponent src j positive significand extra
        | _ => finishDouble src j positive significand extra
      else integerDigits src (i + 1) positive (significand * 10 + digitValue b)
    else afterInteger src i positive significand
  else afterInteger src i positive significand
termination_by src.size - i

/-- A number whose sign, if any, was read: the first digit comes next. -/
def readNumber (src : ByteArray) (i : Nat) (positive : Bool) : Step JsonNumber :=
  match byteAt src i with
  | none => fail (.seen src i "EOF while parsing a value") i
  | some 48 =>
    match byteAt src (i + 1) with
    | some b => if isDigitByte b then fail (.ahead src (i + 1) "invalid number") (i + 1)
                else afterInteger src (i + 1) positive 0
    | none => afterInteger src (i + 1) positive 0
  | some b =>
    if isDigitByte b then integerDigits src (i + 1) positive (digitValue b)
    else fail (.seen src (i + 1) "invalid number") (i + 1)

/-- The value of four hex digits. -/
def hexValue (bs : List UInt8) : Option Nat :=
  bs.foldlM (fun acc b =>
    let n := b.toNat
    if 48 ≤ n && n ≤ 57 then some (acc * 16 + (n - 48))
    else if 65 ≤ n && n ≤ 70 then some (acc * 16 + (n - 55))
    else if 97 ≤ n && n ≤ 102 then some (acc * 16 + (n - 87))
    else none) 0

/-- Four hex digits of a `\u` escape. -/
def hexEscape (src : ByteArray) (i : Nat) : Step Nat :=
  if i + 4 ≤ src.size then
    match hexValue (src.extract i (i + 4)).toList with
    | some n => .ok (n, i + 4)
    | none => fail (.seen src (i + 4) "invalid escape") (i + 4)
  else fail (.seen src src.size "EOF while parsing a string") src.size

def utf8Of (n : Nat) : ByteArray := (String.singleton (Char.ofNat n)).toUTF8

/-- A `\u` escape, after the `u`: a surrogate pair must be complete. -/
def unicodeEscape (src : ByteArray) (i : Nat) :
    Except (JsonError × Nat) (ByteArray × Nat) := do
  let (n, i) ← hexEscape src i
  if 0xDC00 ≤ n && n ≤ 0xDFFF then fail (.seen src i "lone leading surrogate in hex escape") i
  else if n < 0xD800 || n > 0xDBFF then .ok (utf8Of n, i)
  else
    match byteAt src i with
    | none => fail (.seen src i "EOF while parsing a string") i
    | some 92 =>
      match byteAt src (i + 1) with
      | none => fail (.seen src (i + 1) "EOF while parsing a string") (i + 1)
      | some 117 =>
        let (n2, j) ← hexEscape src (i + 2)
        if n2 < 0xDC00 || n2 > 0xDFFF then
          fail (.seen src j "lone leading surrogate in hex escape") j
        else .ok (utf8Of ((n - 0xD800) * 1024 + (n2 - 0xDC00) + 0x10000), j)
      | some _ => fail (.seen src (i + 2) "unexpected end of hex escape") (i + 2)
    | some _ => fail (.seen src (i + 1) "unexpected end of hex escape") (i + 1)

/-- One escape, after the backslash. -/
def escape (src : ByteArray) (i : Nat) : Step ByteArray :=
  match byteAt src i with
  | none => fail (.seen src i "EOF while parsing a string") i
  | some b =>
    match b.toNat with
    | 34 => .ok (ByteArray.mk #[34], i + 1)
    | 92 => .ok (ByteArray.mk #[92], i + 1)
    | 47 => .ok (ByteArray.mk #[47], i + 1)
    | 98 => .ok (ByteArray.mk #[8], i + 1)
    | 102 => .ok (ByteArray.mk #[12], i + 1)
    | 110 => .ok (ByteArray.mk #[10], i + 1)
    | 114 => .ok (ByteArray.mk #[13], i + 1)
    | 116 => .ok (ByteArray.mk #[9], i + 1)
    | 117 => unicodeEscape src (i + 1)
    | _ => fail (.seen src (i + 1) "invalid escape") (i + 1)

/-- The bytes of a string after its opening quote, up to and past the closing one. -/
def stringBytes (src : ByteArray) (i : Nat) (acc : ByteArray) : Step ByteArray :=
  if h : i < src.size then
    let b := src[i]
    if b == 34 then .ok (acc, i + 1)
    else if b == 92 then
      match escape src (i + 1) with
      | .ok (bs, j) =>
        if j > i then stringBytes src j (acc ++ bs) else fail (.seen src j "invalid escape") j
      | .error e => .error e
    else if b < 32 then
      fail (.seen src (i + 1) "control character (\\u0000-\\u001F) found while parsing a string")
        (i + 1)
    else stringBytes src (i + 1) (acc.push b)
  else fail (.seen src src.size "EOF while parsing a string") src.size
termination_by src.size - i

/-- A string after its opening quote. -/
def readString (src : ByteArray) (i : Nat) : Except (JsonError × Nat) (String × Nat) := do
  let (bs, j) ← stringBytes src i ByteArray.empty
  match String.fromUTF8? bs with
  | some s => .ok (s, j)
  | none => fail (.seen src j "invalid unicode code point") j

end JsonText

end PoolTreasury
