import PoolTreasury.Node.Disk
import PoolTreasury.Simulation.World
import PoolTreasury.Feed.Indexer
import PoolTreasury.Treasury.Accrual
import PoolTreasury.Treasury.Commands
import PoolTreasury.Treasury.Settlement

/-! # A node built from its configuration

A node opens the store at its storage location and reaches its collaborators over a
network: the rates service first and the pairs service unless its endpoint is blank, for
prices; the wallet service, signed with the treasury's secret, for transfers. Every call
to them is bounded by the scheduler's call timeout. Building fails only when the store
cannot be opened.

Running a node starts ingestion at the stored cursor, or at the configured start when
none is stored. The accrual scheduler ticks once at once. Ingestion polls the indexer and
passes each delivered transaction through the pipeline, and the command processor applies
what the pipeline queues.
-/

namespace PoolTreasury

namespace NodeConfig

/-- The deadline of every call to another service, in milliseconds. -/
def callMs (c : NodeConfig) : Nat := c.scheduler.callTimeoutSecs * 1000

def callLimits (c : NodeConfig) : CallLimits :=
  { callMs := c.callMs, decimals := c.treasury.tokenDecimals }

def commandSettings (c : NodeConfig) : CommandSettings :=
  { tokenDecimals := c.treasury.tokenDecimals, commissionAmount := c.treasury.commissionAmount,
    treasuryAddress := c.treasury.address, callMs := c.callMs }

def feedSettings (c : NodeConfig) : FeedSettings :=
  { endpoint := c.feed.endpoint, apiKey := c.feed.apiKey,
    pollIntervalMs := c.feed.pollIntervalSecs * 1000, pageSize := c.feed.pageSize,
    requestTimeoutMs := c.feed.requestTimeoutSecs * 1000 }

def priceServices (c : NodeConfig) : List PriceService :=
  PoolTreasury.priceServices c.oracle.primaryEndpoint c.oracle.primaryApiKey c.oracle.fallbackEndpoint

def walletService (c : NodeConfig) : WalletService :=
  .connect c.wallet.endpoint c.wallet.apiKey c.treasury.signingSecret

end NodeConfig

/-- Why a node could not be built. -/
inductive BuildError where
  | openingStore (path : String) (cause : StoreError)
deriving DecidableEq, Repr

namespace BuildError

def message : BuildError → String
  | .openingStore path _ => "opening ledger database at " ++ path

/-- The errors beneath this one, the nearest first. -/
def sources : BuildError → List String
  | .openingStore _ cause => [cause.message]

end BuildError

structure Node where
  config : NodeConfig
  /-- Where the store was opened. -/
  storePath : String
  net : Network
  world : World

namespace Node

/-- A node over the store at its storage location, `home` standing for `$HOME`, with its
clock at `now`. -/
def build (disk : Disk) (home : String) (net : Network) (now : Instant) (config : NodeConfig) :
    Except BuildError Node := do
  let path := config.storageLocation home
  let store ← (disk.openStore path).mapError (BuildError.openingStore path)
  pure { config, storePath := path, net, world := {
    store := .trees store, clock := now,
    collaborators := .remote net config.priceServices config.walletService } }

/-- Runs a ledger call on the node. -/
def perform {α : Type} (n : Node) (call : LedgerT Sim α) :
    Except Overflow (Except LedgerError α) × Node :=
  let (r, world) := (call.run.run).run n.world
  (r, { n with world })

/-- The store as the node leaves it. -/
def tables (n : Node) : TreeTables :=
  match n.world.store with
  | .trees t => t
  | .memory _ => {}

/-- The disk with the node's store put back where it was opened. -/
def close (n : Node) (disk : Disk) : Disk := disk.keepStore n.storePath n.tables

end Node

open MonadLedgerStore in
/-- A page of pools, each with its summary or the reason it has none. -/
def poolSummaries (page : Page) : LedgerT Sim (List (Except LedgerError PoolSummary)) := do
  let pools ← io (listPools page)
  (pools.mapM fun p => (poolSummary p.id : LedgerT Sim _).run : Sim _)

open MonadLedgerStore in
/-- One run of the node: ingestion from the stored cursor with `polls` polls of the indexer,
one accrual tick, and the processing of every queued request. -/
def runNode (config : NodeConfig) (net : Network) (polls : Nat) : Sim (Except StoreError Unit) := do
  let start ← match ← loadCursor with
    | .ok (some lt) => pure lt
    | .ok none => pure config.feed.startLt
    | .error e => return .error e
  let delivered ← config.feedSettings.poll net config.treasury.address polls start
  logAt .info "📡 Subscribed to treasury transactions"
    [("account", config.treasury.address), ("from_lt", toString start)]
  runScheduler config.callMs (← Sim.now) 1
  runIngestion delivered
  let queued := (← get).outbox
  modify fun w => { w with outbox := [] }
  runProcessor config.commandSettings queued
  pure (.ok ())

end PoolTreasury
