import PoolTreasury.Store.Memory
import PoolTreasury.Store.Trees

/-! # Concrete stores

The stores a node can run on, behind one set of calls: the in-memory tables and the
tree store. Each call answers and gives the store as it is afterwards.
-/

namespace PoolTreasury

inductive Backend where
  | memory (tables : MemoryTables)
  | trees (tables : TreeTables)

/-- A store call on a concrete store: its answer and the store afterwards. -/
abbrev BackendCall (α : Type) := Backend → Except StoreError α × Backend

namespace Backend

/-- A call given by what it does on each store. -/
def dispatch {α : Type} (onMemory : MemoryTables → Except StoreError α × MemoryTables)
    (onTrees : TreeTables → Except StoreError α × TreeTables) : BackendCall α
  | .memory t => let (r, t) := onMemory t; (r, .memory t)
  | .trees t => let (r, t) := onTrees t; (r, .trees t)

/-- A call that only reads. -/
def reading {α : Type} (onMemory : MemoryTables → α) (onTrees : TreeTables → Except StoreError α) :
    BackendCall α :=
  dispatch (fun t => (.ok (onMemory t), t)) (fun t => (onTrees t, t))

def saveUser (address : String) (now : Instant) : BackendCall User :=
  dispatch (·.saveUser address now) (·.saveUser address now)

def findUser (id : Nat) : BackendCall (Option User) := reading (·.findUser id) (·.findUser id)

def findUserByAddress (address : String) : BackendCall (Option User) :=
  reading (·.findUserByAddress address) (·.findUserByAddress address)

def savePool (pool : Pool) : BackendCall Pool :=
  dispatch (fun t => let (p, t) := t.savePool pool; (.ok p, t))
    (fun t => let (p, t) := t.savePool pool; (.ok p, t))

def updatePool (pool : Pool) : BackendCall Unit := dispatch (·.updatePool pool) (·.updatePool pool)

def findPool (id : Nat) : BackendCall (Option Pool) := reading (·.findPool id) (·.findPool id)

def deletePool (id : Nat) : BackendCall Unit := dispatch (·.deletePool id) (·.deletePool id)

def listPools (page : Page) : BackendCall (List Pool) :=
  reading (fun t => page.apply t.pools) (·.listPools page)

def listPoolsByOwner (owner : Nat) (page : Page) : BackendCall (List Pool) :=
  reading (fun t => page.apply (t.pools.filter (·.ownerId == owner))) (·.listPoolsByOwner owner page)

def countPools : BackendCall Nat := reading (·.pools.length) (fun t => .ok t.pools.size)

def saveStake (stake : Stake) : BackendCall Stake :=
  dispatch (fun t => let (s, t) := t.saveStake stake; (.ok s, t))
    (fun t => let (s, t) := t.saveStake stake; (.ok s, t))

def updateStake (stake : Stake) : BackendCall Unit := dispatch (·.updateStake stake) (·.updateStake stake)

def findStake (id : Nat) : BackendCall (Option Stake) := reading (·.findStake id) (·.findStake id)

def listStakesByPool (pool : Nat) : BackendCall (List Stake) :=
  reading (fun t => t.stakes.filter (·.poolId == pool)) (·.listStakesByPool pool)

def listStakesByUser (user : Nat) (page : Page) : BackendCall (List Stake) :=
  reading (fun t => page.apply (t.stakes.filter (·.userId == user))) (·.listStakesByUser user page)

def listActiveStakes : BackendCall (List Stake) := reading (·.activeStakes) (·.listActiveStakes)

def countStakes : BackendCall Nat := reading (·.stakes.length) (fun t => .ok t.stakes.size)

def settleClaim (stake : Stake) (pool : Pool) : BackendCall Unit :=
  dispatch (·.settleClaim stake pool) (·.settleClaim stake pool)

def appendOperation (kind : OperationKind) (user : Nat) (description : String) (now : Instant) :
    BackendCall Operation :=
  dispatch (fun t => let (o, t) := t.appendOperation kind user description now; (.ok o, t))
    (fun t => let (o, t) := t.appendOperation kind user description now; (.ok o, t))

def listOperationsByUser (user : Nat) (page : Page) : BackendCall (List Operation) :=
  reading (fun t => page.apply (t.operations.filter (·.userId == user))) (·.listOperationsByUser user page)

def saveCursor (lt : Nat) : BackendCall Unit :=
  dispatch (fun t => (.ok (), { t with cursor := some lt })) (fun t => (.ok (), t.saveCursor lt))

def loadCursor : BackendCall (Option Nat) := reading (·.cursor) (·.loadCursor)

end Backend

end PoolTreasury
