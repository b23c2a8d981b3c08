import PoolTreasury.Prelude
import PoolTreasury.Time.Instant
import PoolTreasury.Encoding.Text

/-! # Instants as RFC 3339 text

An instant is written as a UTC date and time, `2026-01-01T00:00:00Z`, with a fraction
of a second only when there is one, of three, six or nine digits. The reader is
relaxed the way common parsers are: blanks may stand before each number and around the
separators, `t` or a blank may separate date and time, and the offset may be `Z`, `UTC`
in any case, or hours and minutes with an optional colon. Second 60 of any minute reads
as a leap second. Each refusal is one of a few reasons, which name the first thing found
wrong.

Dates are proleptic Gregorian; days are counted from 1970-01-01 by the usual
era-of-400-years arithmetic.
-/

namespace PoolTreasury

/-- Why a date and time text was refused. -/
inductive TimeParseError where
  | outOfRange
  | impossible
  | notEnough
  | invalid
  | tooShort
  | tooLong
deriving DecidableEq, Repr

def TimeParseError.message : TimeParseError → String
  | .outOfRange => "input is out of range"
  | .impossible => "no possible date and time matching input"
  | .notEnough => "input is not enough for unique date and time"
  | .invalid => "input contains invalid characters"
  | .tooShort => "premature end of input"
  | .tooLong => "trailing input"

/-- Days from 1970-01-01 to the given date. -/
def daysFromCivil (year : Int) (month day : Nat) : Int :=
  let y := if month ≤ 2 then year - 1 else year
  let era := y / 400
  let yoe := y - era * 400
  let mp : Int := (month + 9) % 12
  let doy := (153 * mp + 2) / 5 + day - 1
  let doe := yoe * 365 + yoe / 4 - yoe / 100 + doy
  era * 146097 + doe - 719468

/-- The date `days` days after 1970-01-01: year, month and day. -/
def civilFromDays (days : Int) : Int × Nat × Nat :=
  let z := days + 719468
  let era := z / 146097
  let doe := z - era * 146097
  let yoe := (doe - doe / 1460 + doe / 36524 - doe / 146096) / 365
  let doy := doe - (365 * yoe + yoe / 4 - yoe / 100)
  let mp := (5 * doy + 2) / 153
  let day := doy - (153 * mp + 2) / 5 + 1
  let month := if mp < 10 then mp + 3 else mp - 9
  let year := yoe + era * 400 + (if month ≤ 2 then 1 else 0)
  (year, month.toNat, day.toNat)

def isLeapYear (year : Int) : Bool := year % 4 == 0 && (year % 100 != 0 || year % 400 == 0)

def daysInMonth (year : Int) : Nat → Nat
  | 2 => if isLeapYear year then 29 else 28
  | 4 | 6 | 9 | 11 => 30
  | _ => 31

def padDigits (width : Nat) (n : Nat) : String :=
  let digits := toString n
  String.ofList (List.replicate (width - digits.length) '0') ++ digits

/-- A year as four digits, or signed when outside 0 to 9999. -/
def yearText (year : Int) : String :=
  if 0 ≤ year ∧ year ≤ 9999 then padDigits 4 year.toNat
  else (if year < 0 then "-" else "+") ++ padDigits 4 year.natAbs

/-- The fraction of a second, in the fewest of three, six or nine digits. -/
def fractionText (nanos : Nat) : String :=
  if nanos = 0 then ""
  else if nanos % 1000000 = 0 then "." ++ padDigits 3 (nanos / 1000000)
  else if nanos % 1000 = 0 then "." ++ padDigits 6 (nanos / 1000)
  else "." ++ padDigits 9 nanos

/-- The instant as UTC RFC 3339 text; a leap second is second 60. -/
def Instant.rfc3339 (t : Instant) : String :=
  let days := t.second / secondsPerDay
  let sod := (t.second - days * secondsPerDay).toNat
  let (second, nanos) := if t.isLeap then (sod % 60 + 1, t.nanos - 1000000000) else (sod % 60, t.nanos)
  let (year, month, day) := civilFromDays days
  yearText year ++ "-" ++ padDigits 2 month ++ "-" ++ padDigits 2 day ++ "T" ++
    padDigits 2 (sod / 3600) ++ ":" ++ padDigits 2 (sod / 60 % 60) ++ ":" ++ padDigits 2 second ++
    fractionText nanos ++ "Z"

def trimBlanks (s : List Char) : List Char := s.dropWhile isWhiteSpace

/-- The largest value a 64-bit signed number holds. -/
def int64Max : Nat := 2 ^ 63 - 1

/-- Between `least` and `most` digits, stopping at the first other character. -/
def scanDigits (least most : Nat) : List Char → Nat → Nat → Except TimeParseError (Nat × List Char)
  | [], count, n => if count < least then .error (if count = 0 then .tooShort else .invalid) else .ok (n, [])
  | c :: rest, count, n =>
    if count ≥ most then .ok (n, c :: rest)
    else if c.isDigit then
      let n := 10 * n + (c.toNat - 48)
      if n > int64Max then .error .outOfRange else scanDigits least most rest (count + 1) n
    else if count < least then .error .invalid
    else .ok (n, c :: rest)

def scanNumber (most : Nat) (s : List Char) : Except TimeParseError (Nat × List Char) := scanDigits 1 most s 0 0

/-- A number after optional blanks, checked to lie in `[low, high]`. -/
def scanField (most : Nat) (low high : Nat) (s : List Char) : Except TimeParseError (Nat × List Char) := do
  let (n, rest) ← scanNumber most (trimBlanks s)
  if n < low ∨ n > high then throw .outOfRange
  pure (n, rest)

/-- Optional blanks, then the literal character `c`. -/
def scanLiteral (c : Char) (s : List Char) : Except TimeParseError (Unit × List Char) :=
  match trimBlanks s with
  | [] => .error .tooShort
  | d :: rest => if d = c then .ok ((), rest) else .error .invalid

/-- A year: up to four digits, or any number of digits after a sign. -/
def scanYear (s : List Char) : Except TimeParseError (Int × List Char) := do
  let (year, rest) ← match trimBlanks s with
    | '-' :: rest => do
      let (n, rest) ← scanNumber (2 ^ 64) rest
      pure (-(n : Int), rest)
    | '+' :: rest => do
      let (n, rest) ← scanNumber (2 ^ 64) rest
      pure ((n : Int), rest)
    | other => do
      let (n, rest) ← scanNumber 4 other
      pure ((n : Int), rest)
  if year < -(2 ^ 31 : Int) ∨ year ≥ 2 ^ 31 then throw .outOfRange
  pure (year, rest)

/-- The fraction of a second after a dot, scaled to nanoseconds; digits past nine are skipped. -/
def scanFraction (s : List Char) : Except TimeParseError (Nat × List Char) :=
  match s with
  | '.' :: rest => do
    let (n, after) ← scanNumber 9 rest
    let used := rest.length - after.length
    pure (n * 10 ^ (9 - used), after.dropWhile Char.isDigit)
  | _ => .ok (0, s)

/-- An offset east of UTC in seconds: `Z`, or a sign, hours, an optional colon or blanks,
and minutes. -/
def scanOffset (s : List Char) : Except TimeParseError (Int × List Char) := do
  match s with
  | 'Z' :: rest | 'z' :: rest => return (0, rest)
  | _ => pure ()
  let (negative, s) ← match s with
    | '+' :: rest => pure (false, rest)
    | '-' :: rest => pure (true, rest)
    | '−' :: rest => pure (true, rest)
    | [] => throw .tooShort
    | _ => throw .invalid
  let hours ← match s with
    | a :: b :: _ => if a.isDigit ∧ b.isDigit then pure ((a.toNat - 48) * 10 + (b.toNat - 48)) else throw .invalid
    | _ => throw .tooShort
  let s := (s.drop 2).dropWhile fun c => c = ':' ∨ isWhiteSpace c
  let minutes ← match s with
    | a :: b :: _ =>
      if a.isDigit ∧ b.isDigit then
        if a.toNat - 48 ≤ 5 then pure ((a.toNat - 48) * 10 + (b.toNat - 48)) else throw .outOfRange
      else throw .invalid
    | _ => throw .tooShort
  let seconds : Int := hours * 3600 + minutes * 60
  pure (if negative then -seconds else seconds, s.drop 2)

def startsWithUtc : List Char → Bool
  | a :: b :: c :: _ => a.toUpper = 'U' && b.toUpper = 'T' && c.toUpper = 'C'
  | _ => false

/-- The instant a date and time text names. -/
def parseRfc3339 (text : String) : Except TimeParseError Instant := do
  let s := text.toList
  let (year, s) ← scanYear s
  let ((), s) ← scanLiteral '-' s
  let (month, s) ← scanField 2 1 12 s
  let ((), s) ← scanLiteral '-' s
  let (day, s) ← scanField 2 1 31 s
  let s ← match s with
    | 't' :: rest | 'T' :: rest | ' ' :: rest => pure rest
    | [] => throw .tooShort
    | _ => throw .invalid
  let (hour, s) ← scanField 2 0 23 s
  let ((), s) ← scanLiteral ':' s
  let (minute, s) ← scanField 2 0 59 s
  let ((), s) ← scanLiteral ':' s
  let (second, s) ← scanField 2 0 60 s
  let (nanos, s) ← scanFraction s
  let s := trimBlanks s
  let (offset, s) ← if startsWithUtc s then pure ((0 : Int), s.drop 3) else scanOffset s
  if !(trimBlanks s).isEmpty then throw .tooLong
  if day > daysInMonth year month then throw .outOfRange
  if year < -262144 ∨ year > 262143 then throw .outOfRange
  if offset.natAbs ≥ 86400 then throw .outOfRange
  let seconds := daysFromCivil year month day * secondsPerDay + hour * 3600 + minute * 60 + min second 59 - offset
  pure { second := seconds, nanos := if second = 60 then nanos + 1000000000 else nanos }

end PoolTreasury
