import PoolTreasury.Number.Shortest

/-! # JSON values

Numbers keep the three kinds a JSON reader tells apart: a whole number that fits in 64
unsigned bits, a negative one that fits in 64 signed bits, and a double for everything
else. Objects keep their fields in the order given; `Json.canonical` sorts them by key
and keeps the last of equal keys, which is how a map-backed value sees them.
-/

namespace PoolTreasury

inductive JsonNumber where
  | nat (n : Nat)
  | negative (magnitude : Nat)
  | double (f : Float)
deriving Repr

inductive Json where
  | null
  | bool (b : Bool)
  | number (n : JsonNumber)
  | string (s : String)
  | array (items : List Json)
  | object (fields : List (String × Json))
deriving Repr, Inhabited

namespace JsonNumber

/-- Compact text: whole numbers in digits, doubles in their shortest form. -/
def render : JsonNumber → String
  | .nat n => toString n
  | .negative n => "-" ++ toString n
  | .double f => if f.isFinite then Float.renderScientific f else "null"

/-- The number as a double. -/
def toFloat : JsonNumber → Float
  | .nat n => Float.ofNat n
  | .negative n => -Float.ofNat n
  | .double f => f

end JsonNumber

/-- A hex digit in lower case. -/
def hexDigit (n : Nat) : Char :=
  if n < 10 then Char.ofNat (48 + n) else Char.ofNat (87 + n)

/-- A string literal: quote, backslash and control characters escaped, the rest as is. -/
def quoteJson (s : String) : String :=
  let escape (c : Char) : String :=
    match c with
    | '"' => "\\\""
    | '\\' => "\\\\"
    | '\n' => "\\n"
    | '\r' => "\\r"
    | '\t' => "\\t"
    | c =>
      if c.toNat = 8 then "\\b"
      else if c.toNat = 12 then "\\f"
      else if c.toNat < 32 then
        "\\u00" ++ String.ofList [hexDigit (c.toNat / 16), hexDigit (c.toNat % 16)]
      else String.ofList [c]
  "\"" ++ String.join (s.toList.map escape) ++ "\""

namespace Json

mutual

/-- Compact text, with no blanks. -/
def render : Json → String
  | .null => "null"
  | .bool b => if b then "true" else "false"
  | .number n => n.render
  | .string s => quoteJson s
  | .array items => "[" ++ renderItems items ++ "]"
  | .object fields => "\x7b" ++ renderFields fields ++ "\x7d"

def renderItems : List Json → String
  | [] => ""
  | [j] => render j
  | j :: rest => render j ++ "," ++ renderItems rest

def renderFields : List (String × Json) → String
  | [] => ""
  | [(k, v)] => quoteJson k ++ ":" ++ render v
  | (k, v) :: rest => quoteJson k ++ ":" ++ render v ++ "," ++ renderFields rest

end

/-- Insert a field into a key-sorted list, replacing an equal key. -/
def insertSorted (k : String) (v : Json) : List (String × Json) → List (String × Json)
  | [] => [(k, v)]
  | (k', v') :: rest =>
    if k < k' then (k, v) :: (k', v') :: rest
    else if k = k' then (k, v) :: rest
    else (k', v') :: insertSorted k v rest

mutual

/-- Objects sorted by key, the last of equal keys kept, at every depth. -/
def canonical : Json → Json
  | .array items => .array (canonicalItems items)
  | .object fields => .object (canonicalFields fields [])
  | j => j

def canonicalItems : List Json → List Json
  | [] => []
  | j :: rest => canonical j :: canonicalItems rest

def canonicalFields : List (String × Json) → List (String × Json) → List (String × Json)
  | [], acc => acc
  | (k, v) :: rest, acc => canonicalFields rest (insertSorted k (canonical v) acc)

end

/-- The value of a field; the last of equal keys. -/
def get? (j : Json) (key : String) : Option Json :=
  match j with
  | .object fields => (fields.reverse.find? (·.1 == key)).map (·.2)
  | _ => none

/-- A field that is present and not `null`. -/
def field? (j : Json) (key : String) : Option Json :=
  match j.get? key with
  | some .null => none
  | other => other

def str? : Json → Option String
  | .string s => some s
  | _ => none

def bool? : Json → Option Bool
  | .bool b => some b
  | _ => none

def nat? : Json → Option Nat
  | .number (.nat n) => some n
  | .string s => s.toNat?
  | _ => none

def int? : Json → Option Int
  | .number (.nat n) => some n
  | .number (.negative n) => some (-(n : Int))
  | .string s => s.toInt?
  | _ => none

def items? : Json → Option (List Json)
  | .array items => some items
  | _ => none

def fields? : Json → Option (List (String × Json))
  | .object fields => some fields
  | _ => none

def ofNat (n : Nat) : Json := .number (.nat n)

def ofInt (i : Int) : Json :=
  if i < 0 then .number (.negative i.natAbs) else .number (.nat i.toNat)

/-- An optional value, `null` when absent. -/
def opt {α : Type} (f : α → Json) : Option α → Json
  | some a => f a
  | none => .null

end Json

end PoolTreasury
