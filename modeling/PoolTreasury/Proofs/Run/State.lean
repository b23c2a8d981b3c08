import PoolTreasury.Treasury.Settlement
import PoolTreasury.Treasury.Accrual
import PoolTreasury.Store.Memory

/-! # Runs of the treasury services

The ledger, the settlement and the accrual scheduler run against the in-memory store and
against collaborators whose answers are arbitrary: the oracle's `k`-th lookup and the
executor's `k`-th send answer whatever `Outside` says, a missing answer being a call that ran
past its deadline. A run is a sequence of operations from the empty store. Each operation
runs to completion before the next starts; an arithmetic overflow cuts it short and keeps
what it already wrote.

Log events and notifications reach no one here, and the clock only moves between
operations. The state keeps every successful transfer, so that what left the treasury can be
compared with what the store records.
-/

namespace PoolTreasury

/-- What the collaborators of the treasury answer, call by call. -/
structure Outside where
  /-- The oracle's answer to its `k`-th lookup. -/
  price : Nat → String → Option (Except OracleError Decimal)
  /-- The executor's answer to its `k`-th send. -/
  send : Nat → TransferRequest → Option (Except TransferError String)
  tokenWallet : String → String → Option (Except TransferError String)

structure RunState where
  tables : MemoryTables
  clock : Instant
  outside : Outside
  /-- Oracle lookups so far. -/
  lookups : Nat
  /-- Sends so far, answered or not. -/
  sends : Nat
  /-- The transfers the executor accepted, in order. -/
  transfers : List TransferRequest

/-- A computation of the services; an overflow aborts it. -/
abbrev RunM := ExceptT Overflow (StateM RunState)

namespace RunState

/-- The empty store, before any call. -/
def start (outside : Outside) (clock : Instant) : RunState :=
  { tables := {}, clock, outside, lookups := 0, sends := 0, transfers := [] }

/-- A store call that writes. -/
def writing {α : Type} (f : MemoryTables → α × MemoryTables) : RunM α :=
  modifyGet fun s => let (a, t) := f s.tables; (a, { s with tables := t })

/-- A store call that only reads; it always answers. -/
def reading {α : Type} (f : MemoryTables → α) : RunM (Except StoreError α) := do
  pure (.ok (f (← get).tables))

/-- The executor's answer to the next send; an accepted transfer is kept. -/
def sendNext (r : TransferRequest) (s : RunState) :
    Option (Except TransferError String) × RunState :=
  let answer := s.outside.send s.sends r
  let transfers := if (answer.bind (·.toOption)).isSome then s.transfers ++ [r] else s.transfers
  (answer, { s with sends := s.sends + 1, transfers })

end RunState

instance : MonadLog RunM where
  emit _ := pure ()

instance : MonadNotify RunM where
  publish _ := pure ()

instance : MonadClock RunM where
  now := do pure (← get).clock
  sleep _ := pure ()

instance : MonadLedgerStore RunM where
  saveUser a := do
    let now := (← get).clock
    RunState.writing (·.saveUser a now)
  findUser id := RunState.reading (·.findUser id)
  findUserByAddress a := RunState.reading (·.findUserByAddress a)
  savePool p := RunState.writing fun t => let (p, t) := t.savePool p; (.ok p, t)
  updatePool p := RunState.writing (·.updatePool p)
  findPool id := RunState.reading (·.findPool id)
  deletePool id := RunState.writing (·.deletePool id)
  listPools page := RunState.reading fun t => page.apply t.pools
  listPoolsByOwner o page := RunState.reading fun t => page.apply (t.pools.filter (·.ownerId == o))
  countPools := RunState.reading (·.pools.length)
  saveStake s := RunState.writing fun t => let (s, t) := t.saveStake s; (.ok s, t)
  updateStake s := RunState.writing (·.updateStake s)
  findStake id := RunState.reading (·.findStake id)
  listStakesByPool p := RunState.reading fun t => t.stakes.filter (·.poolId == p)
  listStakesByUser u page := RunState.reading fun t => page.apply (t.stakes.filter (·.userId == u))
  listActiveStakes := RunState.reading (·.activeStakes)
  countStakes := RunState.reading (·.stakes.length)
  settleClaim s p := RunState.writing (·.settleClaim s p)
  appendOperation k u d := do
    let now := (← get).clock
    RunState.writing fun t => let (o, t) := t.appendOperation k u d now; (.ok o, t)
  listOperationsByUser u page :=
    RunState.reading fun t => page.apply (t.operations.filter (·.userId == u))
  saveCursor lt := RunState.writing fun t => (.ok (), { t with cursor := some lt })
  loadCursor := RunState.reading (·.cursor)

instance : MonadPriceOracle RunM where
  usdPrice _ token := modifyGet fun s =>
    (s.outside.price s.lookups token, { s with lookups := s.lookups + 1 })

instance : MonadTransfers RunM where
  send _ r := modifyGet (RunState.sendNext r)
  resolveTokenWallet _ token owner := do pure ((← get).outside.tokenWallet token owner)

/-- An operation of the ledger, the settlement or the scheduler, or the clock moving on. -/
inductive LedgerOp where
  | registerUser (address : String)
  | createPool (params : NewPool)
  | addReserve (pool : Nat) (amount : Decimal)
  | payCommission (pool : Nat) (amount required : Decimal)
  | setActive (pool : Nat) (active : Bool)
  | deletePool (pool : Nat)
  | createStake (user pool : Nat) (amount price : Decimal)
  | tick (callMs : Nat) (now : Instant)
  | claim (limits : CallLimits) (stake : Nat) (kind : ClaimKind)
  | withdrawReserve (limits : CallLimits) (pool requester : Nat)
  | setClock (now : Instant)

namespace LedgerOp

/-- The operation as a computation; its answer is dropped, its refusal kept. -/
def action : LedgerOp → LedgerT RunM Unit
  | .registerUser a => discard (PoolTreasury.registerUser a)
  | .createPool p => discard (PoolTreasury.createPool p)
  | .addReserve p a => discard (PoolTreasury.addReserve p a)
  | .payCommission p a r => discard (PoolTreasury.payCommission p a r)
  | .setActive p b => discard (PoolTreasury.setActive p b)
  | .deletePool p => deletePoolChecked p
  | .createStake u p a c => discard (PoolTreasury.createStake u p a c)
  | .tick ms now => discard (accrualTick ms now)
  | .claim l s k => discard (PoolTreasury.claim l s k)
  | .withdrawReserve l p r => discard (PoolTreasury.withdrawReserve l p r)
  | .setClock now => modify fun s => { s with clock := now }

/-- Runs the operation: its outcome, and the state afterwards. -/
def exec (op : LedgerOp) (s : RunState) : Except Overflow (Except LedgerError Unit) × RunState :=
  op.action.run.run.run s

end LedgerOp

namespace RunState

/-- The state after the operations, in order. -/
def runOps (s : RunState) : List LedgerOp → RunState
  | [] => s
  | op :: ops => (op.exec s).2.runOps ops

/-- No operation of the run was cut short by an overflow. -/
def Unbroken (s : RunState) : List LedgerOp → Prop
  | [] => True
  | op :: ops => (∃ r, (op.exec s).1 = .ok r) ∧ (op.exec s).2.Unbroken ops

/-- A state some run reaches from the empty store. -/
def Reachable (s : RunState) : Prop :=
  ∃ outside clock ops, s = (start outside clock).runOps ops

@[simp] theorem runOps_nil (s : RunState) : s.runOps [] = s := rfl

@[simp] theorem runOps_cons (s : RunState) (op : LedgerOp) (ops : List LedgerOp) :
    s.runOps (op :: ops) = (op.exec s).2.runOps ops := rfl

theorem runOps_append (s : RunState) (ops ops' : List LedgerOp) :
    s.runOps (ops ++ ops') = (s.runOps ops).runOps ops' := by
  induction ops generalizing s with
  | nil => rfl
  | cons op ops ih => exact ih _

theorem Reachable.exec {s : RunState} (h : s.Reachable) (op : LedgerOp) :
    (op.exec s).2.Reachable := by
  obtain ⟨outside, clock, ops, rfl⟩ := h
  exact ⟨outside, clock, ops ++ [op], by rw [runOps_append]; rfl⟩

theorem Reachable.runOps {s : RunState} (h : s.Reachable) (ops : List LedgerOp) :
    (s.runOps ops).Reachable := by
  induction ops generalizing s with
  | nil => exact h
  | cons op ops ih => exact ih (h.exec op)

end RunState

end PoolTreasury
