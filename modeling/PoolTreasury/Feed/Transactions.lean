import PoolTreasury.Wire.Message
import PoolTreasury.Json.Shape
import PoolTreasury.Encoding.Base64
import PoolTreasury.Encoding.Text
import PoolTreasury.Log
import PoolTreasury.Http.Request

/-! # Indexer transaction pages

An indexer answers with `{"transactions": [...]}`. Logical times and values may be JSON
numbers or decimal strings. A message body is standard base64 of a bag of cells; a body
that is not base64 is dropped with a warning rather than failing the page. Extra
currency amounts that are not strings keep their JSON text.
-/

namespace PoolTreasury

inductive FeedError where
  | http (failure : SendFailure)
  | status (code : Nat)
  | invalidResponse (detail : String)
deriving DecidableEq, Repr

namespace FeedError

def message : FeedError → String
  | .http f => "HTTP request failed: " ++ f.message
  | .status c => "Indexer returned status " ++ toString c
  | .invalidResponse d => "Invalid feed response: " ++ d

def variant : FeedError → String
  | .http _ => "Http"
  | .status _ => "Status"
  | .invalidResponse _ => "InvalidResponse"

end FeedError

/-- A number given as a JSON number or as decimal text. -/
def numericShape : Shape := .oneOf "Numeric" [.unsigned 64, .text]

def messageContentShape : Shape :=
  .record "MessageContentDto" [("body", .optional .text, .optional)]

def messageShape : Shape :=
  .record "MessageDto"
    [("source", .optional .text, .optional),
     ("value", .optional numericShape, .optional),
     ("bounced", .optional .flag, .defaulted .null),
     ("value_extra_currencies", .optional (.map .any), .defaulted .null),
     ("message_content", .optional messageContentShape, .optional)]

def transactionShape : Shape :=
  .record "TransactionDto"
    [("hash", .text, .required),
     ("lt", numericShape, .required),
     ("now", .signed 64, .defaulted (.number (.nat 0))),
     ("in_msg", .optional messageShape, .optional)]

def transactionsShape : Shape :=
  .record "TransactionsResponse" [("transactions", .list transactionShape, .defaulted (.array []))]

/-- Unsigned decimal text with an optional `+`, below `2 ^ 128`. -/
def parseU128? (s : String) : Option Nat :=
  let digits := match s.toList with
    | '+' :: rest => rest
    | cs => cs
  (digitsValue? digits).filter (· < 2 ^ 128)

def numericValue : Json → Except FeedError Nat
  | .number (.nat n) => .ok n
  | .string s => match parseU128? s with
    | some n => .ok n
    | none => .error (.invalidResponse ("not a number: " ++ s))
  | _ => .error (.invalidResponse "not a number")

def numericU64 (j : Json) : Except FeedError Nat := do
  let n ← numericValue j
  if n < 2 ^ 64 then pure n else throw (.invalidResponse "number out of range")

/-- An extra currency amount: the string itself, or the JSON text of anything else. -/
def currencyAmount : Json → String
  | .string s => s
  | other => other.canonical.render

section

variable {m : Type → Type} [Monad m] [MonadLog m]

def messageOfJson (hash : String) (j : Json) : m (Except FeedError InboundMessage) := do
  let value ← match j.field? "value" with
    | some v => match numericValue v with
      | .ok n => pure n
      | .error e => return .error e
    | none => pure 0
  let body ← match (j.field? "message_content").bind (·.field? "body") with
    | some (.string encoded) =>
      match base64Decode .standard (trimWhite encoded).toUTF8.toList with
      | .ok bytes => pure bytes
      | .error e =>
        logAt .warn "⚠️  Message body is not base64, ignoring body"
          [("hash", hash), ("error", e.message)]
        pure []
    | _ => pure []
  let extras := ((j.field? "value_extra_currencies").map Json.canonical).bind Json.fields?
  pure (.ok {
    source := (j.field? "source").bind Json.str?, value, body,
    bounced := ((j.field? "bounced").bind Json.bool?).getD false,
    extraCurrencies := (extras.getD []).map fun (k, v) => (k, currencyAmount v) })

def transactionOfJson (j : Json) : m (Except FeedError LedgerTransaction) := do
  let hash := ((j.field? "hash").bind Json.str?).getD ""
  match numericU64 ((j.get? "lt").getD .null) with
  | .error e => pure (.error e)
  | .ok lt =>
    let utime := ((j.field? "now").bind Json.int?).getD 0
    match j.field? "in_msg" with
    | none => pure (.ok { hash, lt, utime, inMsg := none })
    | some msg => do
      match ← messageOfJson hash msg with
      | .error e => pure (.error e)
      | .ok inMsg => pure (.ok { hash, lt, utime, inMsg := some inMsg })

def transactionsOfJson : List Json → m (Except FeedError (List LedgerTransaction))
  | [] => pure (.ok [])
  | j :: rest => do
    match ← transactionOfJson j with
    | .error e => pure (.error e)
    | .ok tx => do
      match ← transactionsOfJson rest with
      | .error e => pure (.error e)
      | .ok txs => pure (.ok (tx :: txs))

/-- The transactions of an indexer response body, in the order given. -/
def parseTransactions (body : String) : m (Except FeedError (List LedgerTransaction)) :=
  match transactionsShape.read body with
  | .error e => pure (.error (.invalidResponse ("Failed to parse response: " ++ e.render)))
  | .ok response => transactionsOfJson (((response.get? "transactions").bind Json.items?).getD [])

end

end PoolTreasury
