import PoolTreasury.Store.Backend
import PoolTreasury.Treasury.Effects
import PoolTreasury.Ingest.Pipeline
import PoolTreasury.Market.Services
import PoolTreasury.Wallet.Service

/-! # A simulated node

The treasury services run against scripted collaborators held in one state: the store,
behind a layer that fails armed calls; a clock that stands still while waiting only
advances the time waited; an oracle with set prices and a count of failures to come; a
transfer executor that can be made to fail, or else the price and wallet services
reached over a network; a notifier; the ingestion cursor; the queue
towards the command processor; and the log. Overflow aborts the current step and keeps
what the step already changed.
-/

namespace PoolTreasury

/-- The store error an armed fault produces. -/
inductive FaultError where
  | database
  | notFound
  | duplicate
  | serialization
deriving DecidableEq, Repr

def FaultError.raise (call : String) : FaultError → StoreError
  | .database => .database ("injected " ++ call ++ " fault")
  | .notFound => .notFound "record" 0
  | .duplicate => .duplicate ("injected " ++ call)
  | .serialization => .serialization ("injected " ++ call)

/-- A store call that fails its next `remaining` invocations. -/
structure ArmedFault where
  call : String
  error : FaultError
  remaining : Nat
deriving DecidableEq, Repr

/-- Takes one failure of `call`, if one is armed. -/
def tripFault (call : String) : List ArmedFault → Option StoreError × List ArmedFault
  | [] => (none, [])
  | f :: fs =>
    if f.call == call && f.remaining > 0 then
      (some (f.error.raise call), { f with remaining := f.remaining - 1 } :: fs)
    else
      let (e, fs) := tripFault call fs
      (e, f :: fs)

/-- Where notifications go: collected, nowhere, or to a reader that has gone away. -/
inductive NotifierMode where
  | channel
  | disabled
  | dropped
deriving DecidableEq, Repr

/-- Replaces the entry for a key, or adds it at the end. -/
def setEntry {α : Type} (key : String) (value : α) (entries : List (String × α)) :
    List (String × α) :=
  if entries.any (·.1 == key) then entries.map fun e => if e.1 == key then (key, value) else e
  else entries ++ [(key, value)]

def lookupEntry {α : Type} (key : String) (entries : List (String × α)) : Option α :=
  (entries.find? (·.1 == key)).map Prod.snd

/-- Who prices tokens and moves them: the scripted tables of the world, or services reached
over a network. -/
inductive Collaborators where
  | scripted
  | remote (net : Network) (prices : List PriceService) (wallet : WalletService)

structure World where
  store : Backend
  faults : List ArmedFault := []
  /-- How many lookups of a user by address still answer that there is none. -/
  hiddenLookups : Nat := 0
  clock : Instant
  waitedMs : Nat := 0
  prices : List (String × Decimal) := []
  wallets : List (String × String) := []
  oracleFailures : Nat := 0
  oracleDelayMs : Nat := 0
  executorFailing : Bool := false
  executorDelayMs : Nat := 0
  /-- Successful sends so far. -/
  sent : Nat := 0
  /-- Successful sends of the current step. -/
  transfers : List TransferRequest := []
  notifier : NotifierMode := .channel
  /-- Notifications of the current step. -/
  notifications : List Notification := []
  logs : List LogEvent := []
  cursor : CursorState := {}
  outbox : List SubmitTransaction := []
  collaborators : Collaborators := .scripted

/-- A step of the simulated node; overflow aborts it. -/
abbrev Sim := ExceptT Overflow (StateM World)

namespace Sim

/-- Takes one armed failure of a store call. -/
def trip (call : String) : Sim (Option StoreError) := do
  let w ← get
  let (tripped, faults) := tripFault call w.faults
  set { w with faults }
  pure tripped

/-- Runs a call on the store itself. -/
def onStore {α : Type} (op : BackendCall α) : Sim (Except StoreError α) := do
  let w ← get
  let (r, store) := op w.store
  set { w with store }
  pure r

/-- A store call as the services see it: an armed failure, else the store's answer. -/
def storeCall {α : Type} (call : String) (op : BackendCall α) : Sim (Except StoreError α) := do
  match ← trip call with
  | some e => pure (.error e)
  | none => onStore op

def now : Sim Instant := do pure (← get).clock

end Sim

instance : MonadLog Sim where
  emit e := modify fun w => { w with logs := w.logs ++ [e] }

instance : MonadLedgerStore Sim where
  saveUser a := do Sim.storeCall "save_user" (Backend.saveUser a (← Sim.now))
  findUser id := Sim.storeCall "find_user" (Backend.findUser id)
  findUserByAddress a := do
    match ← Sim.trip "find_user_by_address" with
    | some e => pure (.error e)
    | none =>
      let w ← get
      if w.hiddenLookups > 0 then
        set { w with hiddenLookups := w.hiddenLookups - 1 }
        pure (.ok none)
      else Sim.onStore (Backend.findUserByAddress a)
  savePool p := Sim.storeCall "save_pool" (Backend.savePool p)
  updatePool p := Sim.storeCall "update_pool" (Backend.updatePool p)
  findPool id := Sim.storeCall "find_pool" (Backend.findPool id)
  deletePool id := Sim.storeCall "delete_pool" (Backend.deletePool id)
  listPools page := Sim.storeCall "list_pools" (Backend.listPools page)
  listPoolsByOwner o page := Sim.storeCall "list_pools_by_owner" (Backend.listPoolsByOwner o page)
  countPools := Sim.storeCall "count_pools" Backend.countPools
  saveStake s := Sim.storeCall "save_stake" (Backend.saveStake s)
  updateStake s := Sim.storeCall "update_stake" (Backend.updateStake s)
  findStake id := Sim.storeCall "find_stake" (Backend.findStake id)
  listStakesByPool p := Sim.storeCall "list_stakes_by_pool" (Backend.listStakesByPool p)
  listStakesByUser u page := Sim.storeCall "list_stakes_by_user" (Backend.listStakesByUser u page)
  listActiveStakes := Sim.storeCall "list_active_stakes" Backend.listActiveStakes
  countStakes := Sim.storeCall "count_stakes" Backend.countStakes
  settleClaim s p := Sim.storeCall "settle_claim" (Backend.settleClaim s p)
  appendOperation k u d := do
    Sim.storeCall "append_operation" (Backend.appendOperation k u d (← Sim.now))
  listOperationsByUser u page :=
    Sim.storeCall "list_operations_by_user" (Backend.listOperationsByUser u page)
  saveCursor lt := Sim.storeCall "save_cursor" (Backend.saveCursor lt)
  loadCursor := Sim.storeCall "load_cursor" Backend.loadCursor

instance : MonadClock Sim where
  now := Sim.now
  sleep ms := modify fun w => { w with waitedMs := w.waitedMs + ms }

/-- The oracle waits its delay first; past the deadline the call is abandoned unanswered.
Remote services answer at once. -/
instance : MonadPriceOracle Sim where
  usdPrice deadline token := do
    if let .remote net services _ := (← get).collaborators then
      return some (← fallbackLookup token (services.map (PriceService.source net)))
    let w ← get
    if w.oracleDelayMs > deadline then
      set { w with waitedMs := w.waitedMs + deadline }
      return none
    set { w with waitedMs := w.waitedMs + w.oracleDelayMs }
    let w ← get
    if w.oracleFailures > 0 then
      set { w with oracleFailures := w.oracleFailures - 1 }
      return some (.error (.allSourcesFailed token))
    match lookupEntry token w.prices with
    | some p => pure (some (.ok p))
    | none => pure (some (.error (.noPrice token)))

instance : MonadTransfers Sim where
  send deadline r := do
    if let .remote net _ wallet := (← get).collaborators then return some (wallet.send net r)
    let w ← get
    if w.executorDelayMs > deadline then
      set { w with waitedMs := w.waitedMs + deadline }
      return none
    set { w with waitedMs := w.waitedMs + w.executorDelayMs }
    let w ← get
    if w.executorFailing then return some (.error (.rejected 503 "unavailable"))
    set { w with sent := w.sent + 1, transfers := w.transfers ++ [r] }
    pure (some (.ok ("tx" ++ toString w.sent ++ "-" ++ r.destination)))
  resolveTokenWallet _ token owner := do
    if let .remote net _ wallet := (← get).collaborators then
      return some (wallet.resolveTokenWallet net token owner)
    match lookupEntry token (← get).wallets with
    | some wallet => pure (some (.ok wallet))
    | none => pure (some (.error (.rejected 404 ("unknown token " ++ token))))

instance : MonadNotify Sim where
  publish n := do
    match (← get).notifier with
    | .channel => modify fun w => { w with notifications := w.notifications ++ [n] }
    | .disabled => pure ()
    | .dropped => logAt .debug "Notification receiver gone, dropping notification" []

instance : MonadCursor Sim where
  cursorState := do pure (← get).cursor
  setCursorState c := modify fun w => { w with cursor := c }
  persistCursor lt := MonadLedgerStore.saveCursor lt

instance : MonadRequestQueue Sim where
  send r := do
    modify fun w => { w with outbox := w.outbox ++ [r] }
    pure true

end PoolTreasury
