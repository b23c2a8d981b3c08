import PoolTreasury.Simulation.World
import PoolTreasury.Simulation.Views
import PoolTreasury.Wire.Described
import PoolTreasury.Json.Fields

/-! # Scripted sessions

A session drives one simulated node through a list of steps, each a JSON object naming
what to do under `do`. A step calls the ledger, the settlement, the accrual scheduler,
the command processor or the store, or changes what the collaborators will answer. Its
answer is `{"ok": value}` or the refusal, together with the log lines, notifications and
transfers the step produced. Overflow aborts only the step it happens in; what that step
already changed stays.
-/

namespace PoolTreasury

/-- How the services of a session are set up. -/
structure SessionSettings where
  limits : CallLimits
  commands : CommandSettings
  showLogs : Bool

/-- The moment sessions start at: 2026-11-12T00:00:00Z. -/
def sessionEpoch : Instant := Instant.ofSeconds 1794441600

/-- The start and end of a stake written straight into the store: 2026-01-01T00:00:00Z. -/
def storedStakeDate : Instant := Instant.ofSeconds 1767225600

/-- Half a day in seconds, added to the moment of a tick so that a stake matures on its last day. -/
def halfDaySeconds : Int := 43200

/-- A pool from its fields; `reserve` is required. -/
def describedPool (j : Json) : Reading Pool := do
  let reserve ← decField j "reserve"
  pure {
    id := natFieldOr j "id" 1, ownerId := natFieldOr j "owner_id" 1,
    depositAddress := "0:deposit", tokenMaster := "0:master",
    reserve, tempReserve := ← decFieldOr j "temp_reserve" reserve,
    rewardPercent := ← decFieldOr j "reward_percent" Decimal.one,
    periodDays := natFieldOr j "period_days" 10,
    coatingPercent := ← decFieldOr j "insurance_coating_percent" (Decimal.ofNat 10),
    isActive := boolFieldOr j "is_active" true,
    isCommissionPaid := boolFieldOr j "is_commission_paid" true, createdAt := storedStakeDate }

/-- A stake from its fields; `amount` is required. It starts and ends at `storedStakeDate`. -/
def describedStake (j : Json) : Reading Stake := do
  let amount ← decField j "amount"
  let closePrice ← match j.field? "jetton_price_closed" with
    | none => pure none
    | some v => (need "jetton_price_closed" (decimalOf v)).map some
  pure {
    id := natFieldOr j "id" 1, userId := natFieldOr j "user_id" 2, poolId := natFieldOr j "pool_id" 1,
    amount, balance := ← decFieldOr j "balance" amount, startDate := storedStakeDate,
    endDate := storedStakeDate, closeDate := none, isActive := boolFieldOr j "is_active" false,
    openPrice := ← decFieldOr j "deposit_creation_price" Decimal.one, closePrice,
    isRewardPaid := boolFieldOr j "is_reward_paid" false,
    isInsurancePaid := boolFieldOr j "is_insurance_paid" false }

/-- A listing window: `all`, or `offset` and `limit`. -/
def describedPage (j : Json) : Page :=
  if boolFieldOr j "all" false then Page.all
  else ⟨natFieldOr j "offset" 0, natFieldOr j "limit" 20⟩

/-- An operation by name or code. -/
def describedOperation (j : Json) : Reading OperationType :=
  match j.field? "op" with
  | some (.string s) =>
    need "op" ([OperationType.createPool, .addReserve, .createStake, .payCommission].find? (·.name == s))
  | some v => need "op" (v.nat?.bind OperationType.ofCode?)
  | none => .error "missing op"

/-- A request as the command processor receives it; a JSON payload is written compactly with
its keys in order. -/
def describedCommand (j : Json) : Reading SubmitTransaction := do
  let payload ← match j.field? "payload_json" with
    | some v => pure v.canonical.render.toUTF8.toList
    | none => bytesField j "payload"
  pure {
    operation := ← describedOperation j, amount := natFieldOr j "amount" 0, payload,
    sender := strFieldOr j "sender" "", tokenWallet := (j.field? "token_wallet").bind Json.str?,
    txHash := strFieldOr j "tx_hash" "hash", lt := natFieldOr j "lt" 1 }

def describedFault (j : Json) : Reading FaultError :=
  match strFieldOr j "error" "database" with
  | "database" => pure .database
  | "not_found" => pure .notFound
  | "duplicate" => pure .duplicate
  | "serialization" => pure .serialization
  | other => .error ("unknown fault " ++ other)

/-- The fields of `patch` that are present replace those of `base`; `null` clears the
closing price. -/
def patchStake (base : Stake) (patch : Json) : Reading Stake := do
  let closePrice ← match patch.get? "jetton_price_closed" with
    | none => pure base.closePrice
    | some .null => pure none
    | some v => (need "jetton_price_closed" (decimalOf v)).map some
  pure { base with
    amount := ← decFieldOr patch "amount" base.amount
    balance := ← decFieldOr patch "balance" base.balance
    openPrice := ← decFieldOr patch "deposit_creation_price" base.openPrice
    closePrice
    isActive := boolFieldOr patch "is_active" base.isActive
    isRewardPaid := boolFieldOr patch "is_reward_paid" base.isRewardPaid
    isInsurancePaid := boolFieldOr patch "is_insurance_paid" base.isInsurancePaid }

def patchPool (base : Pool) (patch : Json) : Reading Pool := do
  pure { base with
    reserve := ← decFieldOr patch "reserve" base.reserve
    tempReserve := ← decFieldOr patch "temp_reserve" base.tempReserve
    rewardPercent := ← decFieldOr patch "reward_percent" base.rewardPercent
    coatingPercent := ← decFieldOr patch "insurance_coating_percent" base.coatingPercent
    periodDays := natFieldOr patch "period_days" base.periodDays
    isActive := boolFieldOr patch "is_active" base.isActive
    isCommissionPaid := boolFieldOr patch "is_commission_paid" base.isCommissionPaid }

namespace Sim

/-- The answer of a ledger call. -/
def answer {α : Type} (view : α → Json) (call : LedgerT Sim α) : Sim Json := do
  match ← call.run with
  | .ok a => pure (succeeded (view a))
  | .error e => pure e.view

/-- The answer of a store call. -/
def storeAnswer {α : Type} (view : α → Json) (call : Sim (Except StoreError α)) : Sim Json := do
  match ← call with
  | .ok a => pure (succeeded (view a))
  | .error e => pure e.view

def done (change : World → World) : Sim Json := do
  modify change
  pure (succeeded .null)

def commandAnswer (r : Except LedgerError CommandOutcome) : Json :=
  match r with
  | .ok o => succeeded o.view
  | .error e => e.view

/-- Reads a record, changes it and writes it back with the store's update. -/
def tamper {α : Type} (read : LedgerT Sim α) (change : α → Reading α)
    (write : α → Sim (Except StoreError Unit)) (view : α → Json) : Sim Json := do
  match ← read.run with
  | .error e => pure e.view
  | .ok record =>
    match change record with
    | .error e => pure (failureView "BadInput" e)
    | .ok record =>
      match ← write record with
      | .ok () => pure (succeeded (view record))
      | .error e => pure e.view

/-- A transaction through a fresh ingestion pipeline; a request it queues goes to the
command processor at once. -/
def deliver (settings : SessionSettings) (tx : LedgerTransaction) : Sim Json := do
  modify fun w => { w with outbox := [] }
  let handled ← processTransaction tx
  let queued := (← get).outbox
  modify fun w => { w with outbox := [] }
  match handled with
  | .error e => pure (failureView e.variant e.message)
  | .ok h =>
    let command ← match queued.head? with
      | none => pure Json.null
      | some r => do pure (commandAnswer (← handleRequest settings.commands r))
    pure (succeeded (.object [("handled", .string h.name),
      ("submitted", Json.opt SubmitTransaction.view queued.head?), ("command", command)]))

end Sim

open MonadLedgerStore in
/-- A direct call on the store. -/
def storeStep (s : Json) : String → Reading (Sim Json)
  | "save_user" => do
    let a ← strField s "address"
    pure (Sim.storeAnswer User.view (saveUser a))
  | "find_user_by_address" => do
    let a ← strField s "address"
    pure (Sim.storeAnswer (Json.opt User.view) (findUserByAddress a))
  | "update_pool" => do
    let p ← describedPool ((s.field? "pool").getD .null)
    pure (Sim.storeAnswer (fun _ => .null) (updatePool { p with id := natFieldOr s "id" 0 }))
  | "update_stake" => do
    let st ← describedStake ((s.field? "stake").getD .null)
    pure (Sim.storeAnswer (fun _ => .null) (updateStake { st with id := natFieldOr s "id" 0 }))
  | "delete_pool" => pure (Sim.storeAnswer (fun _ => .null) (deletePool (natFieldOr s "id" 0)))
  | "settle_claim" => do
    let st ← describedStake ((s.field? "stake").getD .null)
    let p ← describedPool ((s.field? "pool").getD .null)
    pure (Sim.storeAnswer (fun _ => .null)
      (settleClaim { st with id := natFieldOr s "stake_id" 0 } { p with id := natFieldOr s "pool_id" 0 }))
  | "save_cursor" => pure (Sim.storeAnswer (fun _ => .null) (saveCursor (natFieldOr s "lt" 0)))
  | "list_pools_by_owner" =>
    pure (Sim.storeAnswer (fun ps => .array (ps.map fun (p : Pool) => Json.ofNat p.id))
      (listPoolsByOwner (natFieldOr s "owner" 0) (describedPage s)))
  | other => .error ("unknown store call " ++ other)

open MonadLedgerStore in
/-- What a step does and answers. -/
def sessionStep (settings : SessionSettings) (s : Json) : String → Reading (Sim Json)
  | "register_user" => do
    let a ← strField s "address"
    pure (Sim.answer User.view (registerUser a))
  | "user" => pure (Sim.answer User.view (ledgerUser (natFieldOr s "id" 0)))
  | "create_pool" => do
    let params : NewPool := {
      ownerId := natFieldOr s "owner" 0, reserveDeposit := ← decField s "reserve",
      tokenMaster := strFieldOr s "token_master" "0:master",
      depositAddress := strFieldOr s "deposit_address" "0:deposit",
      rewardPercent := ← decField s "reward_percent", periodDays := natFieldOr s "period_days" 0,
      coatingPercent := ← decField s "coating" }
    pure (Sim.answer Pool.view (createPool params))
  | "add_reserve" => do
    let amount ← decField s "amount"
    pure (Sim.answer decimalView (addReserve (natFieldOr s "pool" 0) amount))
  | "pay_commission" => do
    let amount ← decField s "amount"
    let required ← decField s "required"
    pure (Sim.answer Pool.view (payCommission (natFieldOr s "pool" 0) amount required))
  | "set_active" =>
    pure (Sim.answer Pool.view (setActive (natFieldOr s "pool" 0) (boolFieldOr s "active" true)))
  | "delete_pool" => pure (Sim.answer (fun _ => .null) (deletePoolChecked (natFieldOr s "pool" 0)))
  | "create_stake" => do
    let amount ← decField s "amount"
    let price ← decField s "price"
    pure (Sim.answer Stake.view (createStake (natFieldOr s "user" 0) (natFieldOr s "pool" 0) amount price))
  | "summary" => pure (Sim.answer PoolSummary.view (poolSummary (natFieldOr s "pool" 0)))
  | "pool" => pure (Sim.answer Pool.view (ledgerPool (natFieldOr s "id" 0)))
  | "stake" => pure (Sim.answer Stake.view (ledgerStake (natFieldOr s "id" 0)))
  | "pools" => pure (Sim.answer (fun ps => .array (ps.map Pool.view)) (io (listPools (describedPage s))))
  | "pools_by_owner" =>
    pure (Sim.answer (fun ps => .array (ps.map Pool.view))
      (io (listPoolsByOwner (natFieldOr s "owner" 0) (describedPage s))))
  | "stakes_by_pool" =>
    pure (Sim.answer (fun ss => .array (ss.map Stake.view)) (poolStakes (natFieldOr s "pool" 0)))
  | "stakes_by_user" =>
    pure (Sim.answer (fun ss => .array (ss.map Stake.view))
      (io (listStakesByUser (natFieldOr s "user" 0) (describedPage s))))
  | "active_stakes" =>
    pure (Sim.answer (fun ss => .array (ss.map fun (st : Stake) => Json.ofNat st.id)) (io listActiveStakes))
  | "operations" =>
    pure (Sim.answer (fun os => .array (os.map Operation.view))
      (io (listOperationsByUser (natFieldOr s "user" 0) (describedPage s))))
  | "counts" => pure do
    match ← countPools with
    | .error e => pure e.view
    | .ok pools =>
      match ← countStakes with
      | .error e => pure e.view
      | .ok stakes => pure (succeeded (.object [("pools", Json.ofNat pools), ("stakes", Json.ofNat stakes)]))
  | "tick" => do
    let days ← need "days" ((s.field? "days").bind Json.int?)
    pure do
      let moment := ((← Sim.now).addSeconds (days * secondsPerDay)).addSeconds halfDaySeconds
      Sim.answer TickReport.view (accrualTick settings.limits.callMs moment)
  | "claim_reward" => pure (Sim.answer Payout.view (claim settings.limits (natFieldOr s "stake" 0) .reward))
  | "claim_insurance" =>
    pure (Sim.answer Payout.view (claim settings.limits (natFieldOr s "stake" 0) .insurance))
  | "withdraw_reserve" =>
    pure (Sim.answer Payout.view
      (withdrawReserve settings.limits (natFieldOr s "pool" 0) (natFieldOr s "user" 0)))
  | "set_price" => do
    let token ← strField s "token"
    match s.field? "price" with
    | none => pure (Sim.done fun w => { w with prices := w.prices.filter (·.1 != token) })
    | some v =>
      let p ← need "price" (decimalOf v)
      pure (Sim.done fun w => { w with prices := setEntry token p w.prices })
  | "oracle_fail" => pure (Sim.done fun w => { w with oracleFailures := natFieldOr s "count" 0 })
  | "executor_fail" => pure (Sim.done fun w => { w with executorFailing := boolFieldOr s "fail" true })
  | "set_wallet" => do
    let token ← strField s "token"
    let wallet ← strField s "wallet"
    pure (Sim.done fun w => { w with wallets := setEntry token wallet w.wallets })
  | "oracle_delay" => pure (Sim.done fun w => { w with oracleDelayMs := natFieldOr s "ms" 0 })
  | "executor_delay" => pure (Sim.done fun w => { w with executorDelayMs := natFieldOr s "ms" 0 })
  | "command" => do
    let r ← describedCommand s
    pure do pure (Sim.commandAnswer (← handleRequest settings.commands r))
  | "command_run" => do
    let rs ← (itemsField s "requests").mapM describedCommand
    pure do
      runProcessor settings.commands rs
      pure (succeeded .null)
  | "deliver" => do
    match ← describedTransaction (← need "tx" (s.field? "tx")) with
    | .error e => pure (pure (failureView e.variant e.message))
    | .ok tx => pure (Sim.deliver settings tx)
  | "cursor" => pure do
    match ← loadCursor with
    | .error e => pure e.view
    | .ok c =>
      pure (succeeded (.object [("cursor", Json.opt natText c), ("pending", Json.ofNat (← pendingCount))]))
  | "scheduler_run" => pure do
    runScheduler settings.limits.callMs (← Sim.now) (max 1 (natFieldOr s "ticks" 1))
    pure (succeeded .null)
  | "store" => do storeStep s (← strField s "call")
  | "store_fault" => do
    let call ← strField s "call"
    let error ← describedFault s
    let armed : ArmedFault := { call, error, remaining := natFieldOr s "count" 1 }
    pure (Sim.done fun w => { w with faults := armed :: w.faults.filter (·.call != call) })
  | "hide_user" => pure (Sim.done fun w => { w with hiddenLookups := natFieldOr s "count" 1 })
  | "db_path" => pure do
    match (← get).store with
    | .memory _ => pure (succeeded .null)
    | .trees _ => pure (succeeded (.string "$TMP"))
  | "tamper_stake" =>
    let patch := (s.field? "fields").getD (.object [])
    pure (Sim.tamper (ledgerStake (natFieldOr s "stake" 0)) (patchStake · patch) updateStake Stake.view)
  | "tamper_pool" =>
    let patch := (s.field? "fields").getD (.object [])
    pure (Sim.tamper (ledgerPool (natFieldOr s "pool" 0)) (patchPool · patch) updatePool Pool.view)
  | other => .error ("unknown step " ++ other)

/-- Adds a list to an answer under `key` when it is not empty. -/
def withList (key : String) (items : List Json) (answer : Json) : Json :=
  match answer with
  | .object fields => if items.isEmpty then answer else .object (fields ++ [(key, .array items)])
  | other => other

/-- Runs one step and collects what it logged, published and sent. -/
def runSessionStep (settings : SessionSettings) (s : Json) : StateM World Json := do
  modify fun w => { w with logs := [], notifications := [], transfers := [] }
  let step := match sessionStep settings s (strFieldOr s "do" "") with
    | .ok step => step
    | .error e => pure (failureView "BadInput" e)
  let answer := match ← step.run with
    | .ok a => a
    | .error o => failureView "Panic" o.message
  let w ← get
  pure (answer
    |> withList "logs" (if settings.showLogs then w.logs.map fun e => .string e.render else [])
    |> withList "notifications" (w.notifications.map Notification.view)
    |> withList "transfers" (w.transfers.map TransferRequest.view))

/-- A world with the given store and collaborators, at the session epoch. -/
def World.fresh (store : Backend) (j : Json) : Reading World := do
  let prices ← (((j.field? "prices").bind Json.fields?).getD []).mapM fun (k, v) => do
    pure (k, ← need ("price of " ++ k) (decimalOf v))
  let wallets := (((j.field? "wallets").bind Json.fields?).getD []).filterMap fun (k, v) =>
    v.str?.map fun w => (k, w)
  let notifier ← match strFieldOr j "notifier" "channel" with
    | "channel" => pure NotifierMode.channel
    | "disabled" => pure .disabled
    | "dropped" => pure .dropped
    | other => .error ("unknown notifier " ++ other)
  pure { store, clock := sessionEpoch, prices, wallets, notifier }

/-- The settings a session asks for: token decimals, commission and retries. -/
def SessionSettings.ofJson (j : Json) : Reading SessionSettings := do
  let decimals := natFieldOr j "decimals" 9
  let commission ← decFieldOr j "commission" (Decimal.ofNat 5)
  pure {
    limits := { callMs := 5000, decimals }
    commands := {
      tokenDecimals := decimals, commissionAmount := commission, treasuryAddress := "0:treasury",
      callMs := 5000, retryAttempts := natFieldOr j "retry_attempts" 3 }
    showLogs := boolFieldOr j "logs" false }

/-- A record written straight into a tree: `tree`, the key as `key_u64`, `key_hex` or
`key_text`, and the value as `value_hex` or `value_text`. -/
def writeDescribedRecord (t : TreeTables) (r : Json) : Reading TreeTables := do
  let key ← match r.field? "key_u64" with
    | some v => pure (idKey (← need "key_u64" v.nat?))
    | none => bytesField r "key"
  let value ← bytesField r "value"
  let tree ← strField r "tree"
  need ("tree " ++ tree) (t.writeRaw tree key value)

/-- The store a session asks for: in memory, or the tree store with `raw` records written
into it before it is opened. -/
def describedBackend (j : Json) : Reading Backend := do
  match strFieldOr j "store" "memory" with
  | "memory" => pure (.memory {})
  | "sled" =>
    match j.field? "raw" with
    | none => pure (.trees {})
    | some records =>
      let t ← ((records.items?).getD []).foldlM writeDescribedRecord {}
      pure (.trees t.reopen)
  | other => .error ("unknown store " ++ other)

/-- Runs a session: the answer of every step, in order. -/
def runSession (j : Json) : Reading Json := do
  let settings ← SessionSettings.ofJson j
  let world ← World.fresh (← describedBackend j) j
  let answers := (((itemsField j "steps").mapM (runSessionStep settings)).run world).1
  pure (.object [("steps", .array answers)])

end PoolTreasury
