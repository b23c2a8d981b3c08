import PoolTreasury.Feed.Transactions
import PoolTreasury.Json.Shape

/-! # Polling an indexer

An indexer lists an account's transactions from a logical time on. A page is asked for
with `GET /transactions` and the query `account`, `start_lt` (one past the last time seen,
never beyond the largest 64-bit value), `sort=asc` and `limit`; the key, when there is one,
travels as `X-API-Key`. Of a page only transactions after the last time seen are kept,
ordered by logical time.

A subscription polls page after page. Each delivered transaction moves the cursor to its
logical time, so nothing at or below the cursor is delivered twice; a failed or unreadable
page is asked for again at the same cursor.
-/

namespace PoolTreasury

/-- How an indexer is polled. Durations are in milliseconds. -/
structure FeedSettings where
  endpoint : String := "https://toncenter.com/api/v3"
  apiKey : Option String := none
  pollIntervalMs : Nat := 5000
  pageSize : Nat := 50
  requestTimeoutMs : Nat := 10000
deriving DecidableEq, Repr

/-- A duration in milliseconds the way a debugging text writes it: whole seconds with a
fraction when at least a second, else milliseconds, and `0ns` for nothing. -/
def durationText (ms : Nat) : String :=
  let fraction (n : Nat) : String :=
    let digits := ((toString (n + 1000)).toList.drop 1)
    let kept := String.ofList (digits.reverse.dropWhile (· == '0')).reverse
    if kept.isEmpty then "" else "." ++ kept
  if ms ≥ 1000 then toString (ms / 1000) ++ fraction (ms % 1000) ++ "s"
  else if ms > 0 then toString ms ++ "ms"
  else "0ns"

namespace FeedSettings

def debugText (s : FeedSettings) : String :=
  "FeedConfig \x7b endpoint: " ++ debugQuote s.endpoint ++ ", api_key: " ++
    (match s.apiKey with
      | some k => "Some(" ++ debugQuote k ++ ")"
      | none => "None") ++
    ", poll_interval: " ++ durationText s.pollIntervalMs ++ ", page_size: " ++ toString s.pageSize ++
    ", request_timeout: " ++ durationText s.requestTimeoutMs ++ " \x7d"

/-- The largest logical time. -/
def maxLt : Nat := 2 ^ 64 - 1

section

variable {m : Type → Type} [Monad m] [MonadLog m]

/-- The transactions of `account` after `afterLt` on one page, in logical-time order. -/
def fetchPage (net : Network) (s : FeedSettings) (account : String) (afterLt : Nat) :
    m (Except FeedError (List LedgerTransaction)) := do
  let query := [("account", account), ("start_lt", toString (min (afterLt + 1) maxLt)),
    ("sort", "asc"), ("limit", toString s.pageSize)]
  let headers := match s.apiKey with
    | some k => [("X-API-Key", k)]
    | none => []
  match exchange net .get s.endpoint "/transactions" query headers none with
  | .error e => pure (.error (.http e))
  | .ok response =>
    if !response.isSuccess then return .error (.status response.status)
    match ← parseTransactions response.body with
    | .error e => pure (.error e)
    | .ok txs => pure (.ok ((txs.filter (·.lt > afterLt)).mergeSort fun a b => a.lt ≤ b.lt))

/-- What successive polls from `cursor` on deliver, in order. The indexer answers each poll
as it is at that time: the `k`-th poll goes through the `k`-th network of `nets`. -/
def pollThrough (s : FeedSettings) (account : String) :
    (nets : List Network) → (cursor : Nat) → m (List LedgerTransaction)
  | [], _ => pure []
  | net :: nets, cursor => do
    match ← fetchPage net s account cursor with
    | .ok page =>
      let next := (page.getLast?.map (·.lt)).getD cursor
      pure (page ++ (← pollThrough s account nets next))
    | .error e =>
      logAt .warn "⚠️  Ledger feed request failed, retrying"
        [("error", e.message), ("lt", toString cursor)]
      pollThrough s account nets cursor

/-- What `polls` successive polls from `cursor` on deliver, in order, when the indexer answers
each request the same way every time. -/
def poll (net : Network) (s : FeedSettings) (account : String) (polls cursor : Nat) :
    m (List LedgerTransaction) :=
  pollThrough s account (List.replicate polls net) cursor

end

end FeedSettings

end PoolTreasury
