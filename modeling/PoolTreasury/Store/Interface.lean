import PoolTreasury.Ledger.Records
import PoolTreasury.Store.Error

/-! # The ledger store

What the ledger asks of persistence: save, replace and query records, and keep an index
of active stakes ordered by end date then id, so that the accrual pass never walks
settled history. A store assigns the ids of new users, pools, stakes and operation
records from one counter.
-/

namespace PoolTreasury

/-- An offset and limit window over a listing. -/
structure Page where
  offset : Nat
  limit : Nat
deriving DecidableEq, Repr

namespace Page

/-- Everything. -/
def all : Page := ⟨0, 2 ^ 64 - 1⟩

def default : Page := ⟨0, 20⟩

def apply {α : Type} (p : Page) (items : List α) : List α := (items.drop p.offset).take p.limit

end Page

/-- The calls a ledger store answers. -/
class MonadLedgerStore (m : Type → Type) where
  saveUser : String → m (Except StoreError User)
  findUser : Nat → m (Except StoreError (Option User))
  findUserByAddress : String → m (Except StoreError (Option User))
  savePool : Pool → m (Except StoreError Pool)
  updatePool : Pool → m (Except StoreError Unit)
  findPool : Nat → m (Except StoreError (Option Pool))
  deletePool : Nat → m (Except StoreError Unit)
  listPools : Page → m (Except StoreError (List Pool))
  listPoolsByOwner : Nat → Page → m (Except StoreError (List Pool))
  countPools : m (Except StoreError Nat)
  saveStake : Stake → m (Except StoreError Stake)
  updateStake : Stake → m (Except StoreError Unit)
  findStake : Nat → m (Except StoreError (Option Stake))
  listStakesByPool : Nat → m (Except StoreError (List Stake))
  listStakesByUser : Nat → Page → m (Except StoreError (List Stake))
  listActiveStakes : m (Except StoreError (List Stake))
  countStakes : m (Except StoreError Nat)
  /-- Writes a settled stake and its debited pool together; neither when either is missing. -/
  settleClaim : Stake → Pool → m (Except StoreError Unit)
  appendOperation : OperationKind → Nat → String → m (Except StoreError Operation)
  listOperationsByUser : Nat → Page → m (Except StoreError (List Operation))
  saveCursor : Nat → m (Except StoreError Unit)
  loadCursor : m (Except StoreError (Option Nat))

/-- Store calls pass through a layer of refusals unchanged. -/
instance {m : Type → Type} {ε : Type} [Monad m] [MonadLedgerStore m] :
    MonadLedgerStore (ExceptT ε m) where
  saveUser a := ExceptT.lift (MonadLedgerStore.saveUser a)
  findUser a := ExceptT.lift (MonadLedgerStore.findUser a)
  findUserByAddress a := ExceptT.lift (MonadLedgerStore.findUserByAddress a)
  savePool a := ExceptT.lift (MonadLedgerStore.savePool a)
  updatePool a := ExceptT.lift (MonadLedgerStore.updatePool a)
  findPool a := ExceptT.lift (MonadLedgerStore.findPool a)
  deletePool a := ExceptT.lift (MonadLedgerStore.deletePool a)
  listPools a := ExceptT.lift (MonadLedgerStore.listPools a)
  listPoolsByOwner a b := ExceptT.lift (MonadLedgerStore.listPoolsByOwner a b)
  countPools := ExceptT.lift MonadLedgerStore.countPools
  saveStake a := ExceptT.lift (MonadLedgerStore.saveStake a)
  updateStake a := ExceptT.lift (MonadLedgerStore.updateStake a)
  findStake a := ExceptT.lift (MonadLedgerStore.findStake a)
  listStakesByPool a := ExceptT.lift (MonadLedgerStore.listStakesByPool a)
  listStakesByUser a b := ExceptT.lift (MonadLedgerStore.listStakesByUser a b)
  listActiveStakes := ExceptT.lift MonadLedgerStore.listActiveStakes
  countStakes := ExceptT.lift MonadLedgerStore.countStakes
  settleClaim a b := ExceptT.lift (MonadLedgerStore.settleClaim a b)
  appendOperation a b c := ExceptT.lift (MonadLedgerStore.appendOperation a b c)
  listOperationsByUser a b := ExceptT.lift (MonadLedgerStore.listOperationsByUser a b)
  saveCursor a := ExceptT.lift (MonadLedgerStore.saveCursor a)
  loadCursor := ExceptT.lift MonadLedgerStore.loadCursor

end PoolTreasury
