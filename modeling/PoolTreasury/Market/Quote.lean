import PoolTreasury.Json.Shape
import PoolTreasury.Http.Request

/-! # Token prices from market responses

A rates response maps tokens to prices by currency; the token is looked up by its key,
and a response with a single entry is taken whatever its key. A pairs response lists
trading pairs; the price of the most liquid pair with a positive price wins, a pair
without liquidity counting as zero, equal liquidity keeping the listed order. A price may
be written as a number or as a string, in positional or scientific notation. Only a
positive price is usable.
-/

namespace PoolTreasury

/-- Why no price was found. -/
inductive OracleError where
  | http (failure : SendFailure)
  | status (source : String) (code : Nat)
  | noPrice (token : String)
  | invalidResponse (detail : String)
  | timeout (what : String)
  | allSourcesFailed (token : String)
deriving DecidableEq, Repr

namespace OracleError

def message : OracleError → String
  | .http f => "HTTP request failed: " ++ f.message
  | .status source code => source ++ " returned status " ++ toString code
  | .noPrice token => "No usable price for " ++ token
  | .invalidResponse d => "Invalid response: " ++ d
  | .timeout what => what ++ " timed out"
  | .allSourcesFailed token => "All price sources failed for " ++ token

def variant : OracleError → String
  | .http _ => "Http"
  | .status .. => "Status"
  | .noPrice _ => "NoPrice"
  | .invalidResponse _ => "InvalidResponse"
  | .timeout _ => "Timeout"
  | .allSourcesFailed _ => "AllSourcesFailed"

/-- The errors beneath this one, the nearest first. -/
def sources : OracleError → List String
  | .http f => f.message :: f.causes
  | _ => []

end OracleError

/-- A price written as a number or a string. -/
def priceOfJson : Json → Option Decimal
  | .number n => Decimal.read? n.render
  | .string s => Decimal.read? s
  | _ => none

def usablePrice (p : Option Decimal) : Option Decimal :=
  p.filter fun d => Decimal.zero < d

/-- The distinct keys of a map as read, the last value of each. -/
def mapEntries (fields : List (String × Json)) : List (String × Json) :=
  fields.foldl (fun (acc : List (String × Json)) (k, v) =>
    if acc.any (·.1 == k) then acc.map fun e => if e.1 == k then (k, v) else e
    else acc ++ [(k, v)]) []

def ratesShape : Shape :=
  .record "RatesResponse" [("rates", .map (.record "TokenRates"
    [("prices", .map .any, .defaulted (.object []))]), .defaulted (.object []))]

/-- The entry of a rates map for `token`: the token's own, or else the entry of a map that
has only one. -/
def ratesEntry (rates : List (String × Json)) (token : String) : Option Json :=
  match rates.find? (·.1 == token) with
  | some (_, v) => some v
  | none => if rates.length = 1 then rates.head?.map Prod.snd else none

/-- The price under `USD`, or under `usd` when there is no `USD`. -/
def usdQuote (prices : List (String × Json)) : Option Json :=
  ((prices.find? (·.1 == "USD")).orElse fun _ => prices.find? (·.1 == "usd")).map Prod.snd

/-- The price of `token` in a rates response. -/
def parseRates (body token : String) : Except OracleError Decimal := do
  let response ← match ratesShape.read body with
    | .ok j => pure j
    | .error e => throw (.invalidResponse ("rates: " ++ e.render))
  let rates := mapEntries (((response.get? "rates").bind Json.fields?).getD [])
  let price := (ratesEntry rates token).bind fun r =>
    (usdQuote (mapEntries (((r.get? "prices").bind Json.fields?).getD []))).bind priceOfJson
  match usablePrice price with
  | some p => pure p
  | none => throw (.noPrice token)

def pairsShape : Shape :=
  .record "PairsResponse" [("pairs", .optional (.list (.record "Pair"
    [("priceUsd", .optional .any, .optional),
     ("liquidity", .optional (.record "Liquidity" [("usd", .optional .double, .optional)]),
       .defaulted .null)])), .defaulted .null)]

/-- The order of doubles that sorts `-0` below `+0`: the bit pattern, negatives mirrored. -/
def totalOrderKey (f : Float) : Int :=
  let bits := f.toBits.toNat
  if bits < 2 ^ 63 then bits else -((bits - 2 ^ 63 : Nat) : Int) - 1

/-- A pair's liquidity in USD; zero when it is not given. -/
def pairLiquidity (pair : Json) : Float :=
  match (pair.field? "liquidity").bind (·.field? "usd") with
  | some (.number n) => n.toFloat
  | _ => 0

/-- A pair's liquidity and its price, when the price is usable. -/
def pairQuote (pair : Json) : Option (Float × Decimal) :=
  (usablePrice ((pair.field? "priceUsd").bind priceOfJson)).map (pairLiquidity pair, ·)

/-- The price of the most liquid pair with a usable price. -/
def parsePairs (body token : String) : Except OracleError Decimal := do
  let response ← match pairsShape.read body with
    | .ok j => pure j
    | .error e => throw (.invalidResponse ("pairs: " ++ e.render))
  let pairs := ((response.get? "pairs").bind Json.items?).getD []
  let sorted := (pairs.filterMap pairQuote).mergeSort fun a b =>
    totalOrderKey b.1 ≤ totalOrderKey a.1
  match sorted.head? with
  | some (_, p) => pure p
  | none => throw (.noPrice token)

end PoolTreasury
