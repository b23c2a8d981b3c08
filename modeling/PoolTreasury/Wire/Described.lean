import PoolTreasury.Wire.Message
import PoolTreasury.Cell.Spec
import PoolTreasury.Cell.Boc

/-! # Transactions and requests in JSON

Views of requests and transactions, and transactions read from a description. Large
numbers are written as decimal strings; payloads as hex, and as text when they are valid
UTF-8. A described transaction's body is given as hex, as a cell description, or as the
fields of a transfer notification; building that body may fail, and the failure is the
cell error.
-/

namespace PoolTreasury

def textOrNull (bytes : List UInt8) : Json :=
  Json.opt Json.string (String.fromUTF8? (ByteArray.mk bytes.toArray))

def natText (n : Nat) : Json := .string (toString n)

def InboundRequest.view (r : InboundRequest) : Json :=
  .object [("op_code", Json.ofNat r.opCode), ("amount", natText r.amount), ("sender", .string r.sender),
    ("payload_hex", .string (hexOfBytes r.payload)), ("payload_text", textOrNull r.payload),
    ("query_id", natText r.queryId), ("token_wallet", Json.opt Json.string r.tokenWallet),
    ("tx_hash", .string r.txHash), ("lt", natText r.lt)]

def SubmitTransaction.view (t : SubmitTransaction) : Json :=
  .object [("operation_type", .string t.operation.name), ("amount", natText t.amount),
    ("payload_hex", .string (hexOfBytes t.payload)), ("payload_text", textOrNull t.payload),
    ("sender_addr", .string t.sender), ("token_wallet", Json.opt Json.string t.tokenWallet),
    ("tx_hash", .string t.txHash), ("lt", natText t.lt)]

def InboundMessage.view (m : InboundMessage) : Json :=
  .object [("source", Json.opt Json.string m.source), ("value", natText m.value),
    ("body_hex", .string (hexOfBytes m.body)), ("bounced", .bool m.bounced),
    ("extra_currencies", .object (m.extraCurrencies.map fun (k, v) => (k, .string v)))]

def LedgerTransaction.view (tx : LedgerTransaction) : Json :=
  .object [("hash", .string tx.hash), ("lt", natText tx.lt), ("utime", Json.ofInt tx.utime),
    ("in_msg", Json.opt InboundMessage.view tx.inMsg)]

/-- A forward payload: a cell description under `forward`, or an operation code and payload. -/
def describedForward (j : Json) : Reading (Except CellError Cell) := do
  if let some v := j.field? "forward" then return buildCell (← describedWrites v)
  pure (forwardPayload (← natBelow j "op_code" (2 ^ 32) 0) (← bytesField j "payload"))

/-- A transfer notification from its fields. -/
def describedNotification (j : Json) : Reading (Except CellError Cell) := do
  let queryId ← natBelow j "query_id" (2 ^ 64) 0
  let amount ← need "amount" ((j.field? "amount").bind Json.nat?)
  let forward ← describedForward j
  pure (do
    let sender ← MsgAddress.parse (← strField j "sender" |>.mapError fun _ => CellError.invalidAddress "")
    transferNotification queryId amount sender (← forward) (boolFieldOr j "inline" false))

/-- A transaction from its description; a body that cannot be built is its cell error. -/
def describedTransaction (j : Json) : Reading (Except CellError LedgerTransaction) := do
  let hash := strFieldOr j "hash" "h"
  let lt ← natBelow j "lt" (2 ^ 64) 0
  let utime := ((j.field? "utime").bind Json.int?).getD 0
  match j.field? "in_msg" with
  | none => pure (.ok { hash, lt, utime, inMsg := none })
  | some m =>
    let body ← match m.field? "body_hex", m.field? "body_cell", m.field? "body_notification" with
      | some v, _, _ => pure (.ok (← need "body_hex" (v.str?.bind bytesOfHex?)))
      | none, some spec, _ => pure ((← describedCell spec).map Cell.toBoc)
      | none, none, some n => pure ((← describedNotification n).map Cell.toBoc)
      | none, none, none => pure (.ok [])
    let extras := (((m.field? "extra_currencies").map Json.canonical).bind Json.fields?).getD []
    pure (body.map fun body => { hash, lt, utime, inMsg := some {
      source := (m.field? "source").bind Json.str?, value := natFieldOr m "value" 0, body,
      bounced := boolFieldOr m "bounced" false,
      extraCurrencies := extras.map fun (k, v) => (k, (v.str?).getD v.render) } })

/-- A request from its fields. -/
def describedRequest (j : Json) : Reading InboundRequest := do
  pure {
    opCode := ← natBelow j "op_code" (2 ^ 32) 0, amount := natFieldOr j "amount" 0,
    sender := strFieldOr j "sender" "", payload := ← bytesField j "payload",
    queryId := natFieldOr j "query_id" 0, tokenWallet := (j.field? "token_wallet").bind Json.str?,
    txHash := strFieldOr j "tx_hash" "", lt := natFieldOr j "lt" 0 }

end PoolTreasury
