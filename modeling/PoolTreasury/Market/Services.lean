import PoolTreasury.Market.Fallback
import PoolTreasury.Http.Request
import PoolTreasury.Encoding.Text

/-! # Price services over HTTP

Two services quote a token's USD price. The rates service is asked `GET /rates` with the
token and the currency `usd` in the query, and takes its key as a bearer token; the pairs
service is asked `GET /latest/dex/tokens/<token>`. A request that gets no answer is an
`Http` error, a status outside the 200s is an error naming the service, and an answered
body is read by `parseRates` or `parsePairs`.
-/

namespace PoolTreasury

inductive PriceService where
  | rates (endpoint : String) (apiKey : Option String)
  | pairs (endpoint : String)
deriving DecidableEq, Repr

namespace PriceService

def name : PriceService → String
  | .rates .. => "rates-api"
  | .pairs _ => "dex-pairs"

/-- The exchange that asks the service for a token's price. -/
def ask (net : Network) (token : String) : PriceService → Except SendFailure HttpResponse
  | .rates endpoint key =>
    let auth := match key with
      | some k => [("Authorization", "Bearer " ++ k)]
      | none => []
    exchange net .get endpoint "/rates" [("tokens", token), ("currencies", "usd")] auth none
  | .pairs endpoint => exchange net .get endpoint ("/latest/dex/tokens/" ++ token) [] [] none

/-- The service's USD price for a token. -/
def usdPrice (net : Network) (s : PriceService) (token : String) : Except OracleError Decimal := do
  let response ← (s.ask net token).mapError OracleError.http
  if !response.isSuccess then throw (.status s.name response.status)
  match s with
  | .rates .. => parseRates response.body token
  | .pairs _ => parsePairs response.body token

/-- The service as one source of a fallback lookup. -/
def source {m : Type → Type} [Monad m] (net : Network) (s : PriceService) : PriceSource m where
  name := s.name
  attempt token := pure (match s.usdPrice net token with
    | .ok p => .answered p
    | .error e => .failed e)

end PriceService

/-- The services a node asks for prices: the rates service, then the pairs service unless
its endpoint is blank. -/
def priceServices (ratesEndpoint : String) (ratesKey : Option String) (pairsEndpoint : String) :
    List PriceService :=
  .rates ratesEndpoint ratesKey ::
    (if (trimWhite pairsEndpoint).isEmpty then [] else [.pairs pairsEndpoint])

end PoolTreasury
