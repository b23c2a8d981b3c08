import PoolTreasury.Node.Runtime
import PoolTreasury.CommandLine.Parse
import PoolTreasury.CommandLine.Report

/-! # The `pool-node` program

The program reads its command line, loads its configuration (from `--config`, else from
`$HOME/.pool-node/config.toml`), builds a node and runs one command: `run`, the listings
`pools` and `stakes`, the settlements `claim-reward`, `claim-insurance` and
`withdraw-reserve`, and the pool changes `set-active` and `delete-pool`.

Help and the version go to standard output with success. A refused command line goes to
standard error with status 2. A configuration that cannot be loaded, a node that cannot
be built and a command that fails are reported on standard error with the errors beneath
them, with status 1; what a command printed before it failed stays printed.
-/

namespace PoolTreasury

def pageOptions : List ArgSpec :=
  [{ id := "offset", long := some "offset", valueName := "OFFSET", default := some "0", kind := .number },
   { id := "limit", long := some "limit", valueName := "LIMIT", default := some "20", kind := .number }]

def idArgument (id valueName help : String) : ArgSpec :=
  { id, valueName, help, required := true, kind := .number }

def configOption : ArgSpec :=
  { id := "config", long := some "config", short := some 'c', valueName := "FILE",
    help := "Path to configuration file", kind := .path }

def ownerOption : ArgSpec :=
  { id := "owner", long := some "owner", valueName := "OWNER", help := "Owner user id", required := true,
    kind := .number }

def activeArgument : ArgSpec := { id := "active", valueName := "ACTIVE", required := true, kind := .truth }

def nodeProgram : ProgramSpec where
  name := "pool-node"
  version := "0.1.0"
  about := "Staking pool treasury node"
  options := [configOption]
  commands := [
    { name := "run", about := "Ingest treasury transactions and run the accrual scheduler", args := [] },
    { name := "pools", about := "List pools with capacity and liability figures", args := pageOptions },
    { name := "stakes", about := "List a user's stakes", args := idArgument "user" "USER" "User id" :: pageOptions },
    { name := "claim-reward", about := "Pay the reward of a closed stake", args := [idArgument "stake" "STAKE" ""] },
    { name := "claim-insurance",
      about := "Pay the insurance of a closed stake whose price dropped past the coating",
      args := [idArgument "stake" "STAKE" ""] },
    { name := "withdraw-reserve", about := "Send a closed pool's free reserve back to its owner",
      args := [idArgument "pool" "POOL" "", ownerOption] },
    { name := "set-active", about := "Open or close a pool for new stakes",
      args := [idArgument "pool" "POOL" "", activeArgument] },
    { name := "delete-pool", about := "Remove an emptied, closed and fully settled pool",
      args := [idArgument "pool" "POOL" ""] }]

inductive NodeCommand where
  | run
  | pools (page : Page)
  | stakes (user : Nat) (page : Page)
  | claimReward (stake : Nat)
  | claimInsurance (stake : Nat)
  | withdrawReserve (pool owner : Nat)
  | setActive (pool : Nat) (active : Bool)
  | deletePool (pool : Nat)
deriving DecidableEq, Repr

/-- The command named, with its arguments as read; defaults fill what was left out. -/
def NodeCommand.ofGiven (command : String) (args : Given) : Option NodeCommand :=
  let page : Page := ⟨(args.number? "offset").getD 0, (args.number? "limit").getD 20⟩
  match command with
  | "run" => some .run
  | "pools" => some (.pools page)
  | "stakes" => (args.number? "user").map (.stakes · page)
  | "claim-reward" => (args.number? "stake").map .claimReward
  | "claim-insurance" => (args.number? "stake").map .claimInsurance
  | "withdraw-reserve" => do pure (.withdrawReserve (← args.number? "pool") (← args.number? "owner"))
  | "set-active" => do pure (.setActive (← args.number? "pool") (← args.truth? "active"))
  | "delete-pool" => (args.number? "pool").map .deletePool
  | _ => none

/-! ## What the commands print -/

/-- An instant as `YYYY-MM-DD HH:MM UTC`. -/
def Instant.minuteText (t : Instant) : String :=
  let days := t.second / secondsPerDay
  let sod := (t.second - days * secondsPerDay).toNat
  let (year, month, day) := civilFromDays days
  yearText year ++ "-" ++ padDigits 2 month ++ "-" ++ padDigits 2 day ++ " " ++
    padDigits 2 (sod / 3600) ++ ":" ++ padDigits 2 (sod / 60 % 60) ++ " UTC"

def PoolSummary.lines (s : PoolSummary) : String :=
  let p := s.pool
  bold (paint .cyan "Pool") ++ " #" ++ toString p.id ++ " [" ++
    (if p.isActive then paint .green "open" else paint .yellow "closed") ++ "] owner " ++
    toString p.ownerId ++ " token " ++ paint .brightBlack p.tokenMaster ++ "\n" ++
  "  reserve " ++ paint .green p.reserve.render ++ "  temp " ++ s.tempReserve.render ++ "  liability " ++
    s.outstandingLiability.render ++ "\n" ++
  "  " ++ p.rewardPercent.render ++ "%/day for " ++ toString p.periodDays ++ " days, coating " ++
    p.coatingPercent.render ++ "%, commission " ++ (if p.isCommissionPaid then "paid" else "unpaid") ++ "\n" ++
  "  " ++ toString s.activeStakes ++ " active stakes, principal " ++ s.activePrincipal.render ++ ", room " ++
    s.capacityLeft.render ++ "\n"

/-- Where a stake stands, in its colour. -/
def Stake.stateText (s : Stake) : String :=
  if s.isRewardPaid then paint .brightBlack "reward paid"
  else if s.isInsurancePaid then paint .brightBlack "insurance paid"
  else if s.isActive then paint .green "active"
  else paint .yellow "awaiting claim"

def Stake.line (s : Stake) : String :=
  bold (paint .cyan "Stake") ++ " #" ++ toString s.id ++ " pool #" ++ toString s.poolId ++ " [" ++
    s.stateText ++ "] amount " ++ s.amount.render ++ " balance " ++ s.balance.render ++ " ends " ++
    s.endDate.minuteText ++ "\n"

def Payout.lines (label : String) (p : Payout) : String :=
  paint .green "✓" ++ " " ++ bold (paint .green label) ++ "\n" ++
  "  Amount:    " ++ p.amount.render ++ "\n" ++
  "  Recipient: " ++ p.recipient ++ "\n" ++
  "  Tx:        " ++ paint .brightBlue p.txHash ++ "\n"

/-! ## Running the program -/

/-- What the program wrote and how it ended. -/
structure Console where
  stdout : String := ""
  stderr : String := ""
  code : Nat := 0
  /-- Whether the node was left running until it was told to stop. -/
  running : Bool := false
deriving DecidableEq, Repr

namespace Console

def print (c : Console) (text : String) : Console := { c with stdout := c.stdout ++ text }

def fail (c : Console) (e : ErrorChain) : Console := { c with stderr := c.stderr ++ e.render, code := 1 }

def ledgerFailure (c : Console) (e : LedgerError) : Console := c.fail { message := e.message, causes := e.sources }

end Console

/-- The machine the program runs on. -/
structure Machine where
  disk : Disk
  /-- What `$HOME` stands for. -/
  home : String
  net : Network
  now : Instant
  /-- How often the indexer is polled before a run is told to stop. -/
  polls : Nat

/-- A ledger call on the node; what it answers goes to `onDone`, a refusal is reported. -/
def Node.report {α : Type} (n : Node) (c : Console) (call : LedgerT Sim α)
    (onDone : Console → Node → α → Console × Node) : Console × Node :=
  match n.perform call with
  | (.ok (.ok a), n) => onDone c n a
  | (.ok (.error e), n) => (c.ledgerFailure e, n)
  | (.error o, n) => ({ c with stderr := c.stderr ++ o.message ++ "\n", code := 101 }, n)

/-- Prints the summary of each pool in turn, stopping at the first that fails. -/
def Node.printSummaries (c : Console) : Node → List Pool → Console × Node
  | n, [] => (c, n)
  | n, p :: rest =>
    n.report c (poolSummary p.id) fun c n s => Node.printSummaries (c.print s.lines) n rest

open MonadLedgerStore in
/-- Runs one command on a built node. -/
def Node.execute (n : Node) (configPath : String) (polls : Nat) : NodeCommand → Console × Node
  | .run =>
    let c : Console := { stdout := bold (paint .cyan "Pool Treasury Node") ++ "\nConfig file: " ++ configPath ++
      "\nTreasury:    " ++ n.config.treasury.address ++ "\n\n" }
    let (r, world) := ((runNode n.config n.net polls).run).run n.world
    let n := { n with world }
    match r with
    | .ok (.ok ()) => ({ c with running := true }, n)
    | .ok (.error e) => (c.fail { message := e.message }, n)
    | .error o => ({ c with stderr := o.message ++ "\n", code := 101 }, n)
  | .pools page =>
    n.report {} (io (listPools page)) fun c n pools =>
      if pools.isEmpty then (c.print (paint .yellow "No pools" ++ "\n"), n) else Node.printSummaries c n pools
  | .stakes user page =>
    n.report {} (io (listStakesByUser user page)) fun c n stakes =>
      (if stakes.isEmpty then c.print (paint .yellow "No stakes" ++ "\n")
        else c.print (String.join (stakes.map Stake.line)), n)
  | .claimReward stake =>
    n.report {} (claim n.config.callLimits stake .reward) fun c n p => (c.print (p.lines "Reward paid"), n)
  | .claimInsurance stake =>
    n.report {} (claim n.config.callLimits stake .insurance) fun c n p => (c.print (p.lines "Insurance paid"), n)
  | .withdrawReserve pool owner =>
    n.report {} (withdrawReserve n.config.callLimits pool owner) fun c n p =>
      (c.print (p.lines "Reserve withdrawn"), n)
  | .setActive pool active =>
    n.report {} (setActive pool active) fun c n p =>
      (c.print (paint .green "✓" ++ " Pool #" ++ toString p.id ++ " is now " ++
        (if p.isActive then "open" else "closed") ++ "\n"), n)
  | .deletePool pool =>
    n.report {} (deletePoolChecked pool) fun c n _ =>
      (c.print (paint .green "✓" ++ " Pool #" ++ toString pool ++ " deleted\n"), n)

/-- What a command line asks for: a command and the configuration file to read, or an
answer given at once (help, the version, a refusal). -/
def readCommandLine (home : String) (args : List String) : Except Console (NodeCommand × String) :=
  match nodeProgram.parse args with
  | .inform text => .error { stdout := text }
  | .refuse text => .error { stderr := text, code := 2 }
  | .invoke options command given =>
    match NodeCommand.ofGiven command given with
    | none => .error { code := 2 }
    | some cmd => .ok (cmd, (options.text? "config").getD (NodeConfig.expandPath home defaultConfigPath))

/-- The configuration file a command line has the program read, if it gets that far. -/
def configPathFor (home : String) (args : List String) : Option String :=
  match readCommandLine home args with
  | .ok (_, path) => some path
  | .error _ => none

/-- The directory of the store a command line has the program open, when its
configuration can be loaded from `files`. -/
def storeDirectoryFor (home : String) (files : FileTree) (args : List String) : Option String := do
  let path ← configPathFor home args
  match NodeConfig.load files path with
  | .ok config => some (config.storageLocation home)
  | .error _ => none

/-- Runs the program with a command line, the program's name left out; the disk as the
program leaves it. -/
def runPoolNode (m : Machine) (args : List String) : Console × Disk :=
  match readCommandLine m.home args with
  | .error answer => (answer, m.disk)
  | .ok (cmd, path) =>
    match NodeConfig.load m.disk.tree path with
    | .error e =>
      (Console.fail {} { message := "loading " ++ path, causes := e.message :: e.sources }, m.disk)
    | .ok config =>
      match Node.build m.disk m.home m.net m.now config with
      | .error e => (Console.fail {} { message := e.message, causes := e.sources }, m.disk)
      | .ok node =>
        let (c, node) := node.execute path m.polls cmd
        (c, node.close m.disk)

end PoolTreasury
