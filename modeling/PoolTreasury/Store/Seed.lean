import PoolTreasury.Store.Trees

/-! # Provisioning and inspecting a tree store

A store is provisioned by writing records through its own calls, in order: users, pools
and stakes take fresh ids as any record does, and a cursor is stored as the last
ingested logical time. A snapshot reads everything back: users, pools, stakes and
operation records in key order, the active stakes in end-date order, the cursor, and the
number of pools and stakes.
-/

namespace PoolTreasury

/-- One record to provision a store with. -/
inductive SeedRecord where
  | user (address : String)
  | pool (pool : Pool)
  | stake (stake : Stake)
  | cursor (lt : Nat)
deriving DecidableEq, Repr

/-- Everything a store holds, read back. -/
structure Snapshot where
  users : List User
  pools : List Pool
  stakes : List Stake
  operations : List Operation
  /-- Ids of the active stakes, in end-date order. -/
  active : List Nat
  cursor : Option Nat
  poolCount : Nat
  stakeCount : Nat
deriving DecidableEq, Repr

namespace TreeTables

/-- Writes one record; the id it took, none for a cursor, or the store's refusal. -/
def seedOne (now : Instant) (t : TreeTables) : SeedRecord → Except StoreError (Option Nat) × TreeTables
  | .user address =>
    let (r, t) := t.saveUser address now
    (r.map fun u => some u.id, t)
  | .pool p =>
    let (p, t) := t.savePool p
    (.ok (some p.id), t)
  | .stake s =>
    let (s, t) := t.saveStake s
    (.ok (some s.id), t)
  | .cursor lt => (.ok none, t.saveCursor lt)

/-- Writes records in order, with what each one came to. -/
def seed (now : Instant) : List SeedRecord → TreeTables → List (Except StoreError (Option Nat)) × TreeTables
  | [], t => ([], t)
  | r :: rest, t =>
    let (result, t) := seedOne now t r
    let (results, t) := seed now rest t
    (result :: results, t)

def snapshot (t : TreeTables) : Except StoreError Snapshot := do
  pure {
    users := ← decodeAll decodeUser t.users.values
    pools := ← t.listPools Page.all
    stakes := ← decodeAll decodeStake t.stakes.values
    operations := ← decodeAll decodeOperation t.operations.values
    active := (← t.listActiveStakes).map (·.id)
    cursor := ← t.loadCursor
    poolCount := t.pools.size
    stakeCount := t.stakes.size }

end TreeTables

end PoolTreasury
