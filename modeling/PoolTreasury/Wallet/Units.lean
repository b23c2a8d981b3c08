import PoolTreasury.Decimal.Text
import PoolTreasury.Http.Request

/-! # Base units

Token amounts travel on chain as whole base units: `units = amount · 10^decimals`,
truncated. At most 28 decimals are supported, the most a decimal's scale holds.
-/

namespace PoolTreasury

/-- Why a transfer did not happen. -/
inductive TransferError where
  /-- The request got no answer from the service. -/
  | http (failure : SendFailure)
  | rejected (status : Nat) (body : String)
  | invalidAmount (detail : String)
  | invalidResponse (detail : String)
deriving DecidableEq, Repr

namespace TransferError

def message : TransferError → String
  | .http f => "HTTP request failed: " ++ f.message
  | .rejected status body =>
    "Wallet service rejected request (" ++ toString status ++ "): " ++ body
  | .invalidAmount d => "Invalid amount: " ++ d
  | .invalidResponse d => "Invalid response: " ++ d

def variant : TransferError → String
  | .http _ => "Http"
  | .rejected .. => "Rejected"
  | .invalidAmount _ => "InvalidAmount"
  | .invalidResponse _ => "InvalidResponse"

/-- The errors beneath this one, the nearest first. -/
def sources : TransferError → List String
  | .http f => f.message :: f.causes
  | _ => []

end TransferError

/-- The most decimals a token amount may have. -/
def maxDecimals : Nat := 28

/-- `amount · 10^decimals`, truncated toward zero; a negative amount, more than 28
decimals, or a product out of range is refused. -/
def toBaseUnits (amount : Decimal) (decimals : Nat) : Except TransferError Nat :=
  if amount.isNegativeValue then .error (.invalidAmount ("negative amount " ++ amount.render))
  else if decimals > maxDecimals then .error (.invalidAmount (toString decimals ++ " decimals"))
  else
    match amount.mul? (Decimal.ofNat (10 ^ decimals)) with
    | some units => .ok units.trunc.mantissa
    | none => .error (.invalidAmount (amount.render ++ " overflows base units"))

/-- `units / 10^decimals` without trailing zeros; more than 28 decimals, or units beyond
the mantissa range, are refused. -/
def fromBaseUnits (units : Nat) (decimals : Nat) : Except TransferError Decimal :=
  if decimals > maxDecimals then .error (.invalidAmount (toString decimals ++ " decimals"))
  else
    match Decimal.ofParts? units decimals false with
    | some d => .ok d.normalize
    | none => .error (.invalidAmount (toString units ++ " base units"))

end PoolTreasury
