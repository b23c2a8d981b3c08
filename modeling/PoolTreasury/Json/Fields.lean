import PoolTreasury.Json.Value
import PoolTreasury.Decimal.Text
import PoolTreasury.Encoding.Hex

/-! # Fields of a JSON request

Reading the fields of a request object, where `null` counts as absent. A decimal may be
written as a string or a number; bytes are given as `key_hex` or `key_text`, and are
empty when neither is there. A failure names the field.
-/

namespace PoolTreasury

/-- A reading of a request; a failure says which field was wrong. -/
abbrev Reading := Except String

def need {α : Type} (what : String) : Option α → Reading α
  | some a => .ok a
  | none => .error ("missing or bad " ++ what)

/-- A decimal written as a string or a number. -/
def decimalOf (j : Json) : Option Decimal :=
  match j with
  | .string s => Decimal.read? s
  | .number n => Decimal.read? n.render
  | _ => none

def decField (j : Json) (key : String) : Reading Decimal := need key ((j.field? key).bind decimalOf)

def decFieldOr (j : Json) (key : String) (d : Decimal) : Reading Decimal :=
  match j.field? key with
  | none => .ok d
  | some v => need key (decimalOf v)

def natFieldOr (j : Json) (key : String) (d : Nat) : Nat := ((j.field? key).bind Json.nat?).getD d

def boolFieldOr (j : Json) (key : String) (d : Bool) : Bool := ((j.field? key).bind Json.bool?).getD d

def strField (j : Json) (key : String) : Reading String := need key ((j.field? key).bind Json.str?)

def strFieldOr (j : Json) (key : String) (d : String) : String := ((j.field? key).bind Json.str?).getD d

def itemsField (j : Json) (key : String) : List Json := ((j.field? key).bind Json.items?).getD []

/-- A number below `bound`, or `d` when absent. -/
def natBelow (j : Json) (key : String) (bound : Nat) (d : Nat) : Reading Nat :=
  match j.field? key with
  | none => pure d
  | some v => match v.nat? with
    | some n => if n < bound then pure n else .error ("out of range " ++ key)
    | none => .error ("bad " ++ key)

/-- A bytes field given as `key_hex` or `key_text`, empty when neither is there. -/
def bytesField (j : Json) (key : String) : Reading (List UInt8) :=
  match j.field? (key ++ "_hex"), j.field? (key ++ "_text") with
  | some v, _ => need (key ++ "_hex") (v.str?.bind bytesOfHex?)
  | none, some v => need (key ++ "_text") (v.str?.map fun t => t.toUTF8.toList)
  | none, none => pure []

end PoolTreasury
