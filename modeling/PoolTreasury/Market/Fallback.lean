import PoolTreasury.Market.Quote
import PoolTreasury.Log

/-! # Ordered fallback across price sources

Sources are asked in order, each within its own deadline, until one answers with a
positive price. A source that fails, answers zero or less, or runs out of time is passed
over, and a source after a successful one is never asked. When none answers, the lookup
fails.
-/

namespace PoolTreasury

/-- How one source's attempt ended. -/
inductive SourceOutcome where
  | answered (price : Decimal)
  | failed (error : OracleError)
  | timedOut
deriving DecidableEq, Repr

/-- A named source whose attempt runs in `m`. -/
structure PriceSource (m : Type → Type) where
  name : String
  attempt : String → m SourceOutcome

/-- The first positive price in source order, with a debug event per source asked. -/
def fallbackLookup {m : Type → Type} [Monad m] [MonadLog m] (token : String) :
    List (PriceSource m) → m (Except OracleError Decimal)
  | [] => do
    logAt .warn "⚠️  All price sources failed" [("token", token)]
    pure (.error (.allSourcesFailed token))
  | s :: rest => do
    match ← s.attempt token with
    | .answered p =>
      if Decimal.zero < p then
        logAt .debug "Price found" [("source", s.name), ("token", token), ("price", p.render)]
        pure (.ok p)
      else
        logAt .debug "Unusable price" [("source", s.name), ("token", token), ("price", p.render)]
        fallbackLookup token rest
    | .failed e =>
      logAt .debug "Price source failed"
        [("source", s.name), ("token", token), ("error", e.message)]
      fallbackLookup token rest
    | .timedOut =>
      logAt .debug "Price source timed out" [("source", s.name), ("token", token)]
      fallbackLookup token rest

end PoolTreasury
