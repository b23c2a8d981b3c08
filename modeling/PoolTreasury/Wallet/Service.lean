import PoolTreasury.Wallet.Units
import PoolTreasury.Treasury.Effects
import PoolTreasury.Json.Shape

/-! # The wallet service

The treasury's keys stay with a wallet service; a node asks it to transfer tokens, to
name the token wallet an owner holds for a token, and to describe a token. A transfer is
`POST /jetton/transfer` with the amount in base units, signed by the treasury's secret as
a bearer token. The service key, when there is one, travels as `X-API-Key`.

A transfer amount is converted before anything is sent: an amount that cannot be
converted, or one below a single base unit, is refused without a request. A status outside
the 200s is a rejection carrying the service's body, and an answer that is not the
expected JSON is an invalid response.
-/

namespace PoolTreasury

/-- What the service tells about a token. -/
structure TokenMetadata where
  name : String
  symbol : String
  decimals : Nat
  /-- In base units, as the token master reports it. -/
  totalSupply : String
deriving DecidableEq, Repr

structure WalletService where
  /-- The base URL, without trailing slashes. -/
  endpoint : String
  apiKey : Option String
  signingSecret : String

namespace WalletService

def connect (endpoint : String) (apiKey : Option String) (signingSecret : String) :
    WalletService :=
  { endpoint := trimEndpoint endpoint, apiKey, signingSecret }

/-- The debugging text, which shows the endpoint and nothing secret. -/
def debugText (w : WalletService) : String :=
  "WalletServiceClient \x7b endpoint: " ++ debugQuote w.endpoint ++ ", .. \x7d"

def keyHeader (w : WalletService) : List (String × String) :=
  match w.apiKey with
  | some k => [("X-API-Key", k)]
  | none => []

/-- A status outside the 200s is the service's refusal. -/
def accepted (r : HttpResponse) : Except TransferError HttpResponse :=
  if r.isSuccess then .ok r else .error (.rejected r.status r.body)

/-- A field of an answer read as JSON; anything else is an invalid response. -/
def answerField (shape : Shape) (body field : String) : Except TransferError Json :=
  match shape.read body with
  | .ok j => match j.get? field with
    | some v => .ok v
    | none => .error (.invalidResponse "error decoding response body")
  | .error _ => .error (.invalidResponse "error decoding response body")

def textAnswer (name body field : String) : Except TransferError String := do
  match ← answerField (.record name [(field, .text, .required)]) body field with
  | .string s => pure s
  | _ => throw (.invalidResponse "error decoding response body")

/-- Sends a transfer and answers its transaction hash. -/
def send (net : Network) (w : WalletService) (r : TransferRequest) : Except TransferError String := do
  let units ← toBaseUnits r.amount r.decimals
  if units = 0 then throw (.invalidAmount (r.amount.render ++ " is below one base unit"))
  let body := Json.object [("amount", .string (toString units)), ("comment", .string r.comment),
    ("destination", .string r.destination), ("token_master", .string r.tokenMaster)]
  let headers := w.keyHeader ++ [("Authorization", "Bearer " ++ w.signingSecret),
    ("Content-Type", "application/json")]
  let response ← (exchange net .post w.endpoint "/jetton/transfer" [] headers
    (some body.render)).mapError TransferError.http
  textAnswer "TransferResponse" (← accepted response).body "tx_hash"

/-- The token wallet that `owner` holds for a token. -/
def resolveTokenWallet (net : Network) (w : WalletService) (tokenMaster owner : String) :
    Except TransferError String := do
  let response ← (exchange net .get w.endpoint "/jetton/wallet"
    [("master", tokenMaster), ("owner", owner)] w.keyHeader none).mapError TransferError.http
  textAnswer "WalletResponse" (← accepted response).body "address"

def metadataShape : Shape :=
  .record "TokenMetadata" [("name", .text, .required), ("symbol", .text, .required),
    ("decimals", .unsigned 8, .required), ("total_supply", .text, .required)]

/-- What the service tells about a token. -/
def tokenMetadata (net : Network) (w : WalletService) (tokenMaster : String) :
    Except TransferError TokenMetadata := do
  let response ← (exchange net .get w.endpoint "/jetton/metadata" [("master", tokenMaster)]
    w.keyHeader none).mapError TransferError.http
  let body := (← accepted response).body
  match metadataShape.read body with
  | .ok j =>
    match (j.get? "name").bind Json.str?, (j.get? "symbol").bind Json.str?,
        (j.get? "decimals").bind Json.nat?, (j.get? "total_supply").bind Json.str? with
    | some name, some symbol, some decimals, some totalSupply =>
      pure { name, symbol, decimals, totalSupply }
    | _, _, _, _ => throw (.invalidResponse "error decoding response body")
  | .error _ => throw (.invalidResponse "error decoding response body")

end WalletService

end PoolTreasury
