/-! # TOML values

A TOML document is a table of values: strings, integers, floats, booleans, dates and
times (kept as their text), arrays and tables. Tables keep their keys in the order they
were first written. A place inside a document is a path of keys and array positions, so
that the tables of an array of tables can be reached.
-/

namespace PoolTreasury

inductive TomlValue where
  | string (s : String)
  | integer (i : Int)
  | float (f : Float)
  | boolean (b : Bool)
  | datetime (text : String)
  | array (items : List TomlValue)
  | table (entries : List (String × TomlValue))
deriving Inhabited

/-- One step into a value: a key of a table, or a position of an array. -/
inductive TomlStep where
  | key (k : String)
  | item (i : Nat)
deriving DecidableEq, Repr

abbrev TomlPath := List TomlStep

namespace TomlValue

def lookup (entries : List (String × TomlValue)) (k : String) : Option TomlValue :=
  (entries.find? (·.1 == k)).map Prod.snd

/-- Replaces the entry for `k`, or adds it last. -/
def setEntry (entries : List (String × TomlValue)) (k : String) (v : TomlValue) :
    List (String × TomlValue) :=
  if entries.any (·.1 == k) then entries.map fun e => if e.1 == k then (k, v) else e
  else entries ++ [(k, v)]

/-- The value at a path, if there is one. -/
def getAt : TomlValue → TomlPath → Option TomlValue
  | v, [] => some v
  | .table es, .key k :: rest => (lookup es k).bind (getAt · rest)
  | .array items, .item i :: rest => items[i]?.bind (getAt · rest)
  | _, _ => none

/-- Puts `new` at a path; missing tables on the way are created. -/
def setAt : TomlValue → TomlPath → TomlValue → TomlValue
  | _, [], new => new
  | .table es, .key k :: rest, new => .table (setEntry es k (setAt ((lookup es k).getD (.table [])) rest new))
  | .array items, .item i :: rest, new =>
    .array (items.set i (setAt (items[i]?.getD (.table [])) rest new))
  | v, _, _ => v

def isTable : TomlValue → Bool
  | .table _ => true
  | _ => false

/-- How the kind of a value is named. -/
def kindName : TomlValue → String
  | .string _ => "string"
  | .integer _ => "integer"
  | .float _ => "float"
  | .boolean _ => "boolean"
  | .datetime _ => "datetime"
  | .array _ => "array"
  | .table _ => "table"

end TomlValue

end PoolTreasury
