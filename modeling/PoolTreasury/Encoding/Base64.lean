import PoolTreasury.Prelude

/-! # Base64

Three bytes become four symbols of six bits each, and a final group of one or two bytes
is padded with `=` to four symbols. Decoding is strict: the padding must be canonical,
and the bits a final symbol carries beyond the last byte must be zero. When text is
rejected, the error names the first fault in the order a decoder meets them. Symbols
before the last group are checked left to right. The last group's padding and symbols
come next. Its length comes after them, then the amount of padding, and last the
unused bits.
-/

namespace PoolTreasury

/-- The two symbols that differ between the alphabets, for the values 62 and 63. -/
structure Base64Alphabet where
  sym62 : Char
  sym63 : Char

namespace Base64Alphabet

def standard : Base64Alphabet := ⟨'+', '/'⟩
def urlSafe : Base64Alphabet := ⟨'-', '_'⟩

def symbol (a : Base64Alphabet) (v : Nat) : Char :=
  if v < 26 then Char.ofNat (65 + v)
  else if v < 52 then Char.ofNat (71 + v)
  else if v < 62 then Char.ofNat (v - 4)
  else if v = 62 then a.sym62 else a.sym63

/-- The six-bit value of a symbol byte; `=` has none. -/
def value? (a : Base64Alphabet) (b : UInt8) : Option Nat :=
  let n := b.toNat
  if 65 ≤ n ∧ n ≤ 90 then some (n - 65)
  else if 97 ≤ n ∧ n ≤ 122 then some (n - 71)
  else if 48 ≤ n ∧ n ≤ 57 then some (n + 4)
  else if n = a.sym62.toNat then some 62
  else if n = a.sym63.toNat then some 63
  else none

end Base64Alphabet

inductive Base64Error where
  | invalidByte (offset : Nat) (byte : UInt8)
  | invalidLength (symbols : Nat)
  | invalidLastSymbol (offset : Nat) (byte : UInt8)
  | invalidPadding
deriving DecidableEq, Repr

def Base64Error.message : Base64Error → String
  | .invalidByte i b => "Invalid symbol " ++ toString b.toNat ++ ", offset " ++ toString i ++ "."
  | .invalidLength n => "Invalid input length: " ++ toString n
  | .invalidLastSymbol i b =>
    "Invalid last symbol " ++ toString b.toNat ++ ", offset " ++ toString i ++ "."
  | .invalidPadding => "Invalid padding"

def padByte : UInt8 := 61

/-- The symbols for up to three bytes, padded to four. -/
def encodeGroup (a : Base64Alphabet) : List UInt8 → List Char
  | [b0] =>
    let n := b0.toNat * 65536
    [a.symbol (n / 262144 % 64), a.symbol (n / 4096 % 64), '=', '=']
  | [b0, b1] =>
    let n := b0.toNat * 65536 + b1.toNat * 256
    [a.symbol (n / 262144 % 64), a.symbol (n / 4096 % 64), a.symbol (n / 64 % 64), '=']
  | [b0, b1, b2] =>
    let n := b0.toNat * 65536 + b1.toNat * 256 + b2.toNat
    [a.symbol (n / 262144 % 64), a.symbol (n / 4096 % 64), a.symbol (n / 64 % 64),
      a.symbol (n % 64)]
  | _ => []

def encodeChars (a : Base64Alphabet) (bytes : List UInt8) : List Char :=
  if h : bytes.length ≤ 3 then encodeGroup a bytes
  else encodeGroup a (bytes.take 3) ++ encodeChars a (bytes.drop 3)
termination_by bytes.length
decreasing_by simp; omega

/-- Padded base64 text of `bytes`. -/
def base64Encode (a : Base64Alphabet) (bytes : List UInt8) : String :=
  String.ofList (encodeChars a bytes)

/-- The six-bit values of the symbols from `offset` on, or the first byte that is not one. -/
def symbolValues (a : Base64Alphabet) (offset : Nat) :
    List UInt8 → Except Base64Error (List Nat)
  | [] => .ok []
  | b :: rest =>
    match a.value? b with
    | none => .error (.invalidByte offset b)
    | some v => (symbolValues a (offset + 1) rest).map (v :: ·)

/-- The bytes carried by six-bit values, most significant first, the spare low bits dropped. -/
def bytesOfSymbols (values : List Nat) : List UInt8 :=
  let n := values.foldl (fun acc v => acc * 64 + v) 0
  let count := values.length * 6 / 8
  let spare := values.length * 6 - count * 8
  (List.range count).map fun i => ((n / 2 ^ spare) / 256 ^ (count - 1 - i) % 256).toUInt8

def bytesOfGroups (values : List Nat) : List UInt8 :=
  if h : values.length ≤ 4 then bytesOfSymbols values
  else bytesOfSymbols (values.take 4) ++ bytesOfGroups (values.drop 4)
termination_by values.length
decreasing_by simp; omega

/-- What the last group holds so far: its symbol values, the count of `=` and where the
first one stood, and the last symbol byte. -/
structure LastGroup where
  values : List Nat := []
  pads : Nat := 0
  firstPad : Nat := 0
  lastSymbol : UInt8 := 0

def scanLastGroup (a : Base64Alphabet) (start : Nat) :
    Nat → LastGroup → List UInt8 → Except Base64Error LastGroup
  | _, g, [] => .ok g
  | k, g, b :: rest =>
    if b = padByte then
      if k < 2 then .error (.invalidByte (start + k) b)
      else scanLastGroup a start (k + 1)
        { g with pads := g.pads + 1, firstPad := if g.pads = 0 then k else g.firstPad } rest
    else if g.pads > 0 then .error (.invalidByte (start + g.firstPad) padByte)
    else match a.value? b with
      | none => .error (.invalidByte (start + k) b)
      | some v => scanLastGroup a start (k + 1)
          { g with values := g.values ++ [v], lastSymbol := b } rest

/-- Strict decoding of padded base64. -/
def base64Decode (a : Base64Alphabet) (input : List UInt8) : Except Base64Error (List UInt8) := do
  let len := input.length
  let rem := len % 4
  if rem = 1 then
    match input.getLast? with
    | some last =>
      if last ≠ padByte ∧ a.value? last = none then throw (.invalidByte (len - 1) last)
    | none => pure ()
  let body := len - rem - (if rem = 0 then 4 else 0)
  let leading ← symbolValues a 0 (input.take body)
  let g ← scanLastGroup a body 0 {} (input.drop body)
  let m := g.values.length
  if len ≠ 0 ∧ m < 2 then throw (.invalidLength (body + m))
  if (g.pads + m) % 4 ≠ 0 then throw .invalidPadding
  let spare := m * 6 - m * 6 / 8 * 8
  if g.values.foldl (fun acc v => acc * 64 + v) 0 % 2 ^ spare ≠ 0 then
    throw (.invalidLastSymbol (body + m - 1) g.lastSymbol)
  pure (bytesOfGroups leading ++ bytesOfSymbols g.values)

end PoolTreasury
