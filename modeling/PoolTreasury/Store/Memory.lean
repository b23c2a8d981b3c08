import PoolTreasury.Store.Interface

/-! # The in-memory store

Tables kept as lists ordered by id, an address index, the active index ordered by
(end date, id), and the operation log in append order. Every call succeeds except a
second user for an address and the replacement of a record that does not exist.
-/

namespace PoolTreasury

structure MemoryTables where
  lastId : Nat := 0
  /-- Ascending by id. -/
  users : List User := []
  byAddress : List (String × Nat) := []
  /-- Ascending by id. -/
  pools : List Pool := []
  /-- Ascending by id. -/
  stakes : List Stake := []
  /-- (end date, id) of every active stake, ascending. -/
  active : List (Instant × Nat) := []
  /-- In append order. -/
  operations : List Operation := []
  cursor : Option Nat := none
deriving Repr

/-- Inserts or replaces by key, keeping the list ascending. -/
def upsertBy {α : Type} (key : α → Nat) (x : α) : List α → List α
  | [] => [x]
  | y :: ys =>
    if key x < key y then x :: y :: ys
    else if key x = key y then x :: ys
    else y :: upsertBy key x ys

def pairLt (a b : Instant × Nat) : Bool := a.1 < b.1 || (a.1 = b.1 && a.2 < b.2)

def insertPair (p : Instant × Nat) : List (Instant × Nat) → List (Instant × Nat)
  | [] => [p]
  | q :: qs => if pairLt p q then p :: q :: qs else if p = q then q :: qs else q :: insertPair p qs

namespace MemoryTables

def allocate (t : MemoryTables) : Nat × MemoryTables := (t.lastId + 1, { t with lastId := t.lastId + 1 })

/-- Moves a stake in the active index from its previous state to its current one. -/
def reindex (t : MemoryTables) (previous : Option Stake) (current : Stake) : MemoryTables :=
  let removed := match previous with
    | some p => t.active.erase (p.endDate, p.id)
    | none => t.active
  { t with active := if current.isActive then insertPair (current.endDate, current.id) removed else removed }

def findUser (t : MemoryTables) (id : Nat) : Option User := t.users.find? (·.id == id)
def findPool (t : MemoryTables) (id : Nat) : Option Pool := t.pools.find? (·.id == id)
def findStake (t : MemoryTables) (id : Nat) : Option Stake := t.stakes.find? (·.id == id)

def findUserByAddress (t : MemoryTables) (address : String) : Option User :=
  ((t.byAddress.find? (·.1 == address)).map (·.2)).bind t.findUser

def saveUser (t : MemoryTables) (address : String) (now : Instant) :
    Except StoreError User × MemoryTables :=
  if t.byAddress.any (·.1 == address) then (.error (.duplicate ("user " ++ address)), t)
  else
    let (id, t) := t.allocate
    let user : User := { id, walletAddress := address, createdAt := now }
    (.ok user, { t with users := upsertBy (·.id) user t.users, byAddress := t.byAddress ++ [(address, id)] })

def savePool (t : MemoryTables) (pool : Pool) : Pool × MemoryTables :=
  let (id, t) := t.allocate
  let pool := { pool with id }
  (pool, { t with pools := upsertBy (·.id) pool t.pools })

def updatePool (t : MemoryTables) (pool : Pool) : Except StoreError Unit × MemoryTables :=
  match t.findPool pool.id with
  | some _ => (.ok (), { t with pools := upsertBy (·.id) pool t.pools })
  | none => (.error (.notFound "pool" pool.id), t)

def deletePool (t : MemoryTables) (id : Nat) : Except StoreError Unit × MemoryTables :=
  match t.findPool id with
  | some _ => (.ok (), { t with pools := t.pools.filter (·.id != id) })
  | none => (.error (.notFound "pool" id), t)

def saveStake (t : MemoryTables) (stake : Stake) : Stake × MemoryTables :=
  let (id, t) := t.allocate
  let stake := { stake with id }
  let t := t.reindex none stake
  (stake, { t with stakes := upsertBy (·.id) stake t.stakes })

def updateStake (t : MemoryTables) (stake : Stake) : Except StoreError Unit × MemoryTables :=
  match t.findStake stake.id with
  | none => (.error (.notFound "stake" stake.id), t)
  | some previous =>
    let t := t.reindex (some previous) stake
    (.ok (), { t with stakes := upsertBy (·.id) stake t.stakes })

def activeStakes (t : MemoryTables) : List Stake := t.active.filterMap fun (_, id) => t.findStake id

def settleClaim (t : MemoryTables) (stake : Stake) (pool : Pool) : Except StoreError Unit × MemoryTables :=
  match t.findStake stake.id with
  | none => (.error (.notFound "stake" stake.id), t)
  | some previous =>
    if (t.findPool pool.id).isNone then (.error (.notFound "pool" pool.id), t)
    else
      let t := t.reindex (some previous) stake
      (.ok (), { t with stakes := upsertBy (·.id) stake t.stakes, pools := upsertBy (·.id) pool t.pools })

def appendOperation (t : MemoryTables) (kind : OperationKind) (userId : Nat) (description : String)
    (now : Instant) : Operation × MemoryTables :=
  let (id, t) := t.allocate
  let op : Operation := { id, kind, description, userId, createdAt := now }
  (op, { t with operations := t.operations ++ [op] })

end MemoryTables

end PoolTreasury
