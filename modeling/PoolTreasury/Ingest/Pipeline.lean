import PoolTreasury.Ingest.Cursor
import PoolTreasury.Wire.Decode

/-! # Ingestion: decode, dispatch, hold

Transactions are handled one at a time in feed order. One without a request releases
its logical time at once. One with a request of a known kind is held and its request is
queued for the application, which releases it once applied. A request of an unknown
kind is dropped with a warning. When the application has stopped reading, queueing
fails and ingestion stops, leaving the transaction held.
-/

namespace PoolTreasury

inductive DispatchError where
  | channelClosed
deriving DecidableEq, Repr

def DispatchError.message : DispatchError → String
  | .channelClosed => "Output channel closed"

def DispatchError.variant : DispatchError → String
  | .channelClosed => "ChannelClosed"

inductive Handled where
  | dispatched
  | skipped
  | dropped
deriving DecidableEq, Repr

def Handled.name : Handled → String
  | .dispatched => "Dispatched"
  | .skipped => "Skipped"
  | .dropped => "Dropped"

/-- The queue towards the application. `send` is false when nobody reads it any more. -/
class MonadRequestQueue (m : Type → Type) where
  send : SubmitTransaction → m Bool

section

variable {m : Type → Type} [Monad m] [MonadLog m]

/-- Queues a request of a known kind; `false` when the kind is unknown and nothing was queued. -/
def dispatchRequest [MonadRequestQueue m] (r : InboundRequest) : m (Except DispatchError Bool) := do
  match OperationType.ofCode? r.opCode with
  | none =>
    logAt .warn "⚠️  Unknown operation code, request dropped"
      [("op_code", toString r.opCode), ("sender", r.sender), ("lt", toString r.lt)]
    pure (.ok false)
  | some op =>
    logAt .debug "📨 Dispatching request"
      [("operation", op.name), ("sender", r.sender), ("amount", toString r.amount)]
    if ← MonadRequestQueue.send (.ofRequest op r) then pure (.ok true)
    else pure (.error .channelClosed)

variable [MonadCursor m] [MonadRequestQueue m]

/-- Handles one transaction. -/
def processTransaction (tx : LedgerTransaction) : m (Except DispatchError Handled) := do
  match ← decodeTransaction tx with
  | .ok none =>
    releaseCursor tx.lt
    pure (.ok .skipped)
  | .error e =>
    logAt .warn "⚠️  Dropping undecodable transaction"
      [("lt", toString tx.lt), ("hash", tx.hash), ("error", e.message)]
    releaseCursor tx.lt
    pure (.ok .dropped)
  | .ok (some request) =>
    holdCursor tx.lt
    match ← dispatchRequest request with
    | .error e => pure (.error e)
    | .ok true => pure (.ok .dispatched)
    | .ok false =>
      releaseCursor tx.lt
      pure (.ok .skipped)

/-- Consumes a feed until it ends or the application stops reading. -/
def runIngestion : List LedgerTransaction → m Unit
  | [] => logAt .info "Ledger feed closed, ingestion stopped"
  | tx :: rest => do
    match ← processTransaction tx with
    | .error .channelClosed => logAt .warn "Command channel closed, stopping ingestion"
    | .ok _ => runIngestion rest

end

end PoolTreasury
