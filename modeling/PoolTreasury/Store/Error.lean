/-! # Store errors -/

namespace PoolTreasury

inductive StoreError where
  | database (detail : String)
  | serialization (detail : String)
  | notFound (kind : String) (id : Nat)
  | duplicate (detail : String)
deriving DecidableEq, Repr

namespace StoreError

def message : StoreError → String
  | .database d => "Database error: " ++ d
  | .serialization d => "Serialization error: " ++ d
  | .notFound kind id => "Record not found: " ++ kind ++ " " ++ toString id
  | .duplicate d => "Duplicate record: " ++ d

def variant : StoreError → String
  | .database _ => "Database"
  | .serialization _ => "Serialization"
  | .notFound .. => "NotFound"
  | .duplicate _ => "Duplicate"

end StoreError

end PoolTreasury
