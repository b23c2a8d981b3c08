import PoolTreasury.Wire.Message
import PoolTreasury.Cell.Boc
import PoolTreasury.Json.Shape
import PoolTreasury.Log

/-! # Decoding treasury transactions

Only a jetton transfer notification whose forward payload names a request becomes a
request. Bounces, bare transfers, unknown bodies and comments are passed over without an
error; a body that cannot be read, a payload shorter than it declares, or payload text
that is not base64 is an error.
-/

namespace PoolTreasury

inductive DecodeError where
  | malformed (e : CellError)
  | truncatedPayload (declared found : Nat)
  | base64 (e : Base64Error)
deriving DecidableEq, Repr

namespace DecodeError

def message : DecodeError → String
  | .malformed e => "Malformed message body: " ++ e.message
  | .truncatedPayload d f =>
    "Forward payload truncated: declared " ++ toString d ++ " bytes, found " ++ toString f
  | .base64 e => "Payload is not valid base64: " ++ e.message

def variant : DecodeError → String
  | .malformed _ => "Malformed"
  | .truncatedPayload .. => "TruncatedPayload"
  | .base64 _ => "Base64"

end DecodeError

/-- A map of strings as a debugging printout shows it. -/
def debugStringMap (entries : List (String × String)) : String :=
  "\x7b" ++ ", ".intercalate (entries.map fun (k, v) => debugQuote k ++ ": " ++ debugQuote v) ++ "\x7d"

/-- The bits a forward payload needs for its request code and length. -/
def payloadHeaderBits : Nat := 32 + 16

/-- The fields of a transfer notification after its operation code: the query id, the amount,
the sender, and the slice holding the forward payload. -/
def notificationFields : Read (Nat × Nat × Option MsgAddress × Slice) := do
  let queryId ← Slice.loadUint 64
  let amount ← Slice.loadCoins
  let sender ← Slice.loadAddress
  match sender with
  | none => pure (queryId, amount, none, ← get)
  | some _ => pure (queryId, amount, sender, ← Slice.loadEitherRef)

/-- A forward payload's request code, declared text length and text; a comment has neither. -/
def forwardBody : Read (Nat × Nat × List UInt8) := do
  let opCode ← Slice.loadU32
  if opCode = opTextComment then return (opCode, 0, [])
  let declared ← Slice.loadUint 16
  pure (opCode, declared, ← Slice.loadSnakeBytes)

section

variable {m : Type → Type} [Monad m] [MonadLog m]

def logNative (tx : LedgerTransaction) (value : Nat) : m Unit :=
  if value > 0 then
    logAt .info "💎 Native transfer received (no action taken)"
      [("lt", toString tx.lt), ("hash", tx.hash), ("value", toString value)]
  else logAt .debug "Empty message, skipping" [("lt", toString tx.lt)]

/-- The request in a transfer notification, read from just after its operation code. -/
def decodeNotification (tx : LedgerTransaction) (slice : Slice) :
    m (Except DecodeError (Option InboundRequest)) := do
  match notificationFields.run' slice with
  | .error e => pure (.error (.malformed e))
  | .ok (_, _, none, _) => pure (.error (.malformed (.invalidAddress "notification without sender")))
  | .ok (queryId, amount, some sender, forward) =>
    let who := [("lt", toString tx.lt), ("sender", sender.render), ("amount", toString amount)]
    if forward.remainingBits < payloadHeaderBits then
      logAt .info "📥 Jetton transfer without request payload" who
      return .ok none
    match forwardBody.run' forward with
    | .error e => pure (.error (.malformed e))
    | .ok (opCode, declared, text) =>
      if opCode = opTextComment then
        logAt .info "📥 Jetton transfer with comment" who
        return .ok none
      if text.length < declared then
        return .error (.truncatedPayload declared text.length)
      match base64Decode .standard (text.take declared) with
      | .error e => pure (.error (.base64 e))
      | .ok payload =>
        logAt .debug "Decoded transfer notification"
          [("lt", toString tx.lt), ("op_code", toString opCode), ("sender", sender.render),
            ("amount", toString amount)]
        pure (.ok (some {
          opCode, amount, sender := sender.render, payload, queryId,
          tokenWallet := tx.inMsg.bind (·.source), txHash := tx.hash, lt := tx.lt }))

/-- The request a transaction carries; `none` when there is nothing to act on. -/
def decodeTransaction (tx : LedgerTransaction) : m (Except DecodeError (Option InboundRequest)) := do
  match tx.inMsg with
  | none =>
    logAt .debug "No inbound message, skipping" [("lt", toString tx.lt)]
    pure (.ok none)
  | some msg =>
    if msg.bounced then
      logAt .debug "↩️  Bounced message, skipping" [("lt", toString tx.lt), ("hash", tx.hash)]
      return .ok none
    if !msg.extraCurrencies.isEmpty then
      logAt .info "🪙 Transaction carries extra currencies"
        [("lt", toString tx.lt), ("currencies", debugStringMap msg.extraCurrencies)]
    if msg.body.isEmpty then
      logNative tx msg.value
      return .ok none
    match Cell.ofBoc msg.body with
    | .error e => pure (.error (.malformed e))
    | .ok body =>
      let slice := body.slice
      if slice.remainingBits < 32 then
        logNative tx msg.value
        return .ok none
      match Slice.loadU32.run slice with
      | .error e => pure (.error (.malformed e))
      | .ok (op, rest) =>
        if op = bouncePrefix then
          logAt .debug "↩️  Bounce body, skipping" [("lt", toString tx.lt)]
          pure (.ok none)
        else if op = opTransferNotification then decodeNotification tx rest
        else
          if msg.value > 0 then logNative tx msg.value
          else logAt .debug "Unrecognized body, skipping" [("lt", toString tx.lt), ("op", toString op)]
          pure (.ok none)

end

end PoolTreasury
