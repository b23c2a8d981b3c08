import PoolTreasury.Store.Interface
import PoolTreasury.Json.Shape
import PoolTreasury.Encoding.Hex

/-! # The tree store

A store kept as ordered maps from byte keys to byte values, one map per kind of record,
the way an embedded key-value database keeps them. Records are stored as JSON text and
decoded on every read, so a record that does not decode fails the read that meets it:
a listing fails on the first bad record it scans, even one it would have filtered out.

Keys are big-endian ids, so byte order is id order. Stakes are indexed by pool (pool id
then stake id) and, while active, by end date (the end second with its sign bit flipped,
then the id), so the active index lists stakes by end date then id. Operations are keyed
by user id then operation id. Ids come from a generator that counts from zero; a record
takes the generated number plus one. Saving a user takes an id before the address is
checked, so a refused duplicate still uses one up.
-/

namespace PoolTreasury

/-- Byte strings in dictionary order; a proper prefix comes first. -/
def bytesLt : List UInt8 → List UInt8 → Bool
  | [], [] => false
  | [], _ :: _ => true
  | _ :: _, [] => false
  | a :: as, b :: bs => a < b || (a == b && bytesLt as bs)

/-- An ordered map from byte keys to byte values. -/
structure ByteTree where
  /-- Ascending by key, without repeats. -/
  entries : List (List UInt8 × List UInt8) := []
deriving Repr

namespace ByteTree

def get (t : ByteTree) (key : List UInt8) : Option (List UInt8) :=
  (t.entries.find? (·.1 == key)).map Prod.snd

def containsKey (t : ByteTree) (key : List UInt8) : Bool := t.entries.any (·.1 == key)

def insertEntry (key value : List UInt8) :
    List (List UInt8 × List UInt8) → List (List UInt8 × List UInt8)
  | [] => [(key, value)]
  | e :: es =>
    if e.1 == key then (key, value) :: es
    else if bytesLt key e.1 then (key, value) :: e :: es
    else e :: insertEntry key value es

def insert (t : ByteTree) (key value : List UInt8) : ByteTree := ⟨insertEntry key value t.entries⟩

def remove (t : ByteTree) (key : List UInt8) : ByteTree := ⟨t.entries.filter (·.1 != key)⟩

/-- The values whose keys start with `prefix`, in key order. -/
def scanPrefix (t : ByteTree) (pre : List UInt8) : List (List UInt8) :=
  (t.entries.filter fun e => pre.isPrefixOf e.1).map Prod.snd

def values (t : ByteTree) : List (List UInt8) := t.entries.map Prod.snd

def size (t : ByteTree) : Nat := t.entries.length

end ByteTree

/-- Eight big-endian bytes. -/
def idKey (n : Nat) : List UInt8 := (List.range 8).reverse.map fun i => UInt8.ofNat (n / 256 ^ i % 256)

def pairKey (high low : Nat) : List UInt8 := idKey high ++ idKey low

/-- The number eight big-endian bytes hold. -/
def ofIdKey (bytes : List UInt8) : Nat := bytes.foldl (fun acc b => acc * 256 + b.toNat) 0

/-- Orders active stakes by end second (two's complement with the sign bit flipped) then id. -/
def activeKey (endDate : Instant) (id : Nat) : List UInt8 :=
  pairKey ((endDate.seconds + 2 ^ 63) % 2 ^ 64).toNat id

/-- Where the ingestion cursor is kept. -/
def cursorKey : List UInt8 := "cursor:last_lt".toUTF8.toList

/-! ## Stored records -/

def instantJson (t : Instant) : Json := .string t.rfc3339

def User.stored (u : User) : Json :=
  .object [("id", Json.ofNat u.id), ("wallet_address", .string u.walletAddress),
    ("created_at", instantJson u.createdAt)]

def Pool.stored (p : Pool) : Json :=
  .object [("id", Json.ofNat p.id), ("owner_id", Json.ofNat p.ownerId),
    ("deposit_address", .string p.depositAddress), ("token_master", .string p.tokenMaster),
    ("reserve", .string p.reserve.render), ("temp_reserve", .string p.tempReserve.render),
    ("reward_percent", .string p.rewardPercent.render), ("period_days", Json.ofNat p.periodDays),
    ("insurance_coating_percent", .string p.coatingPercent.render), ("is_active", .bool p.isActive),
    ("is_commission_paid", .bool p.isCommissionPaid), ("created_at", instantJson p.createdAt)]

def Stake.stored (s : Stake) : Json :=
  .object [("id", Json.ofNat s.id), ("user_id", Json.ofNat s.userId), ("pool_id", Json.ofNat s.poolId),
    ("amount", .string s.amount.render), ("balance", .string s.balance.render),
    ("start_date", instantJson s.startDate), ("end_date", instantJson s.endDate),
    ("close_date", Json.opt instantJson s.closeDate), ("is_active", .bool s.isActive),
    ("deposit_creation_price", .string s.openPrice.render),
    ("jetton_price_closed", Json.opt (fun d => .string d.render) s.closePrice),
    ("is_reward_paid", .bool s.isRewardPaid), ("is_insurance_paid", .bool s.isInsurancePaid)]

def Operation.stored (o : Operation) : Json :=
  .object [("id", Json.ofNat o.id), ("kind", .string o.kind.storedName),
    ("description", .string o.description), ("user_id", Json.ofNat o.userId),
    ("created_at", instantJson o.createdAt)]

def userShape : Shape :=
  .record "User" [("id", .unsigned 64, .required), ("wallet_address", .text, .required),
    ("created_at", .instant, .required)]

def poolShape : Shape :=
  .record "Pool" [("id", .unsigned 64, .required), ("owner_id", .unsigned 64, .required),
    ("deposit_address", .text, .required), ("token_master", .text, .required),
    ("reserve", .decimal, .required), ("temp_reserve", .decimal, .required),
    ("reward_percent", .decimal, .required), ("period_days", .unsigned 32, .required),
    ("insurance_coating_percent", .decimal, .required), ("is_active", .flag, .required),
    ("is_commission_paid", .flag, .required), ("created_at", .instant, .required)]

def stakeShape : Shape :=
  .record "Stake" [("id", .unsigned 64, .required), ("user_id", .unsigned 64, .required),
    ("pool_id", .unsigned 64, .required), ("amount", .decimal, .required),
    ("balance", .decimal, .required), ("start_date", .instant, .required),
    ("end_date", .instant, .required), ("close_date", .optional .instant, .optional),
    ("is_active", .flag, .required), ("deposit_creation_price", .decimal, .required),
    ("jetton_price_closed", .optional .decimal, .optional), ("is_reward_paid", .flag, .required),
    ("is_insurance_paid", .flag, .required)]

def operationShape : Shape :=
  .record "Operation" [("id", .unsigned 64, .required),
    ("kind", .variant "OperationKind" (OperationKind.all.map OperationKind.storedName), .required),
    ("description", .text, .required), ("user_id", .unsigned 64, .required),
    ("created_at", .instant, .required)]

namespace StoredFields

def nat (j : Json) (key : String) : Nat := ((j.get? key).bind Json.nat?).getD 0
def text (j : Json) (key : String) : String := ((j.get? key).bind Json.str?).getD ""
def flag (j : Json) (key : String) : Bool := ((j.get? key).bind Json.bool?).getD false
def decimal? (j : Json) (key : String) : Option Decimal := ((j.get? key).bind Json.str?).bind Decimal.read?
def decimal (j : Json) (key : String) : Decimal := (decimal? j key).getD Decimal.zero
def instant? (j : Json) (key : String) : Option Instant :=
  ((j.get? key).bind Json.str?).bind fun t => (parseRfc3339 t).toOption
def instant (j : Json) (key : String) : Instant := (instant? j key).getD (Instant.ofSeconds 0)

end StoredFields

open StoredFields in
def User.ofStored (j : Json) : User :=
  { id := nat j "id", walletAddress := text j "wallet_address", createdAt := instant j "created_at" }

open StoredFields in
def Pool.ofStored (j : Json) : Pool :=
  { id := nat j "id", ownerId := nat j "owner_id", depositAddress := text j "deposit_address",
    tokenMaster := text j "token_master", reserve := decimal j "reserve",
    tempReserve := decimal j "temp_reserve", rewardPercent := decimal j "reward_percent",
    periodDays := nat j "period_days", coatingPercent := decimal j "insurance_coating_percent",
    isActive := flag j "is_active", isCommissionPaid := flag j "is_commission_paid",
    createdAt := instant j "created_at" }

open StoredFields in
def Stake.ofStored (j : Json) : Stake :=
  { id := nat j "id", userId := nat j "user_id", poolId := nat j "pool_id", amount := decimal j "amount",
    balance := decimal j "balance", startDate := instant j "start_date", endDate := instant j "end_date",
    closeDate := instant? j "close_date", isActive := flag j "is_active",
    openPrice := decimal j "deposit_creation_price", closePrice := decimal? j "jetton_price_closed",
    isRewardPaid := flag j "is_reward_paid", isInsurancePaid := flag j "is_insurance_paid" }

open StoredFields in
def Operation.ofStored (j : Json) : Operation :=
  { id := nat j "id", kind := ((OperationKind.ofStoredName? (text j "kind")).getD .poolCreated),
    description := text j "description", userId := nat j "user_id", createdAt := instant j "created_at" }

def encodeRecord (j : Json) : List UInt8 := j.render.toUTF8.toList

/-- A stored record of the given shape; `what` names it in the refusal. -/
def decodeRecord {α : Type} (what : String) (shape : Shape) (build : Json → α) (bytes : List UInt8) :
    Except StoreError α :=
  match shape.readBytes (ByteArray.mk bytes.toArray) with
  | .ok j => .ok (build j)
  | .error e => .error (.serialization ("Failed to deserialize " ++ what ++ ": " ++ e.render))

def decodeUser := decodeRecord "user" userShape User.ofStored
def decodePool := decodeRecord "pool" poolShape Pool.ofStored
def decodeStake := decodeRecord "stake" stakeShape Stake.ofStored
def decodeOperation := decodeRecord "operation" operationShape Operation.ofStored

/-- Decodes every value, failing on the first that does not decode. -/
def decodeAll {α : Type} (decode : List UInt8 → Except StoreError α) (values : List (List UInt8)) :
    Except StoreError (List α) :=
  values.mapM decode

/-- Decodes the value under each id, skipping ids with no value. -/
def decodeReferenced {α : Type} (tree : ByteTree) (decode : List UInt8 → Except StoreError α) :
    List (List UInt8) → Except StoreError (List α)
  | [] => .ok []
  | id :: ids => do
    let rest ← decodeReferenced tree decode ids
    match tree.get id with
    | some v => pure ((← decode v) :: rest)
    | none => pure rest

/-! ## The store -/

structure TreeTables where
  /-- What the id generator hands out next. -/
  generated : Nat := 0
  users : ByteTree := {}
  usersByAddress : ByteTree := {}
  pools : ByteTree := {}
  stakes : ByteTree := {}
  stakesByPool : ByteTree := {}
  activeStakes : ByteTree := {}
  operations : ByteTree := {}
  metadata : ByteTree := {}
deriving Repr

namespace TreeTables

/-- A fresh id: the generated number plus one, zero being kept for "unassigned". -/
def nextId (t : TreeTables) : Nat × TreeTables := (t.generated + 1, { t with generated := t.generated + 1 })

def saveUser (t : TreeTables) (address : String) (now : Instant) : Except StoreError User × TreeTables :=
  let (id, t) := t.nextId
  let user : User := { id, walletAddress := address, createdAt := now }
  let t := { t with users := t.users.insert (idKey id) (encodeRecord user.stored) }
  let addressKey := address.toUTF8.toList
  if t.usersByAddress.containsKey addressKey then
    (.error (.duplicate ("user " ++ address)), { t with users := t.users.remove (idKey id) })
  else (.ok user, { t with usersByAddress := t.usersByAddress.insert addressKey (idKey id) })

def findUser (t : TreeTables) (id : Nat) : Except StoreError (Option User) :=
  (t.users.get (idKey id)).mapM decodeUser

def findUserByAddress (t : TreeTables) (address : String) : Except StoreError (Option User) :=
  match t.usersByAddress.get address.toUTF8.toList with
  | some id => (t.users.get id).mapM decodeUser
  | none => .ok none

def savePool (t : TreeTables) (pool : Pool) : Pool × TreeTables :=
  let (id, t) := t.nextId
  let pool := { pool with id }
  (pool, { t with pools := t.pools.insert (idKey id) (encodeRecord pool.stored) })

def updatePool (t : TreeTables) (pool : Pool) : Except StoreError Unit × TreeTables :=
  if t.pools.containsKey (idKey pool.id) then
    (.ok (), { t with pools := t.pools.insert (idKey pool.id) (encodeRecord pool.stored) })
  else (.error (.notFound "pool" pool.id), t)

def findPool (t : TreeTables) (id : Nat) : Except StoreError (Option Pool) :=
  (t.pools.get (idKey id)).mapM decodePool

def deletePool (t : TreeTables) (id : Nat) : Except StoreError Unit × TreeTables :=
  if t.pools.containsKey (idKey id) then (.ok (), { t with pools := t.pools.remove (idKey id) })
  else (.error (.notFound "pool" id), t)

def listPools (t : TreeTables) (page : Page) : Except StoreError (List Pool) :=
  (decodeAll decodePool t.pools.values).map page.apply

def listPoolsByOwner (t : TreeTables) (owner : Nat) (page : Page) : Except StoreError (List Pool) :=
  (decodeAll decodePool t.pools.values).map fun ps => page.apply (ps.filter (·.ownerId == owner))

def indexActive (active : ByteTree) (s : Stake) : ByteTree :=
  if s.isActive then active.insert (activeKey s.endDate s.id) (idKey s.id) else active

def saveStake (t : TreeTables) (stake : Stake) : Stake × TreeTables :=
  let (id, t) := t.nextId
  let stake := { stake with id }
  (stake, { t with
    stakes := t.stakes.insert (idKey id) (encodeRecord stake.stored)
    stakesByPool := t.stakesByPool.insert (pairKey stake.poolId id) (idKey id)
    activeStakes := indexActive t.activeStakes stake })

def findStake (t : TreeTables) (id : Nat) : Except StoreError (Option Stake) :=
  (t.stakes.get (idKey id)).mapM decodeStake

def updateStake (t : TreeTables) (stake : Stake) : Except StoreError Unit × TreeTables :=
  match t.findStake stake.id with
  | .error e => (.error e, t)
  | .ok none => (.error (.notFound "stake" stake.id), t)
  | .ok (some previous) =>
    (.ok (), { t with
      stakes := t.stakes.insert (idKey stake.id) (encodeRecord stake.stored)
      activeStakes := indexActive (t.activeStakes.remove (activeKey previous.endDate previous.id)) stake })

def listStakesByPool (t : TreeTables) (pool : Nat) : Except StoreError (List Stake) :=
  decodeReferenced t.stakes decodeStake (t.stakesByPool.scanPrefix (idKey pool))

def listStakesByUser (t : TreeTables) (user : Nat) (page : Page) : Except StoreError (List Stake) :=
  (decodeAll decodeStake t.stakes.values).map fun ss => page.apply (ss.filter (·.userId == user))

def listActiveStakes (t : TreeTables) : Except StoreError (List Stake) :=
  decodeReferenced t.stakes decodeStake t.activeStakes.values

/-- Writes a stake and a pool together, or neither when one of them is missing. -/
def settleClaim (t : TreeTables) (stake : Stake) (pool : Pool) : Except StoreError Unit × TreeTables :=
  if !t.stakes.containsKey (idKey stake.id) then (.error (.notFound "stake" stake.id), t)
  else if !t.pools.containsKey (idKey pool.id) then (.error (.notFound "pool" pool.id), t)
  else (.ok (), { t with
    stakes := t.stakes.insert (idKey stake.id) (encodeRecord stake.stored)
    pools := t.pools.insert (idKey pool.id) (encodeRecord pool.stored) })

def appendOperation (t : TreeTables) (kind : OperationKind) (user : Nat) (description : String)
    (now : Instant) : Operation × TreeTables :=
  let (id, t) := t.nextId
  let op : Operation := { id, kind, description, userId := user, createdAt := now }
  (op, { t with operations := t.operations.insert (pairKey user id) (encodeRecord op.stored) })

def listOperationsByUser (t : TreeTables) (user : Nat) (page : Page) : Except StoreError (List Operation) :=
  (decodeAll decodeOperation (t.operations.scanPrefix (idKey user))).map page.apply

def saveCursor (t : TreeTables) (lt : Nat) : TreeTables := { t with metadata := t.metadata.insert cursorKey (idKey lt) }

def loadCursor (t : TreeTables) : Except StoreError (Option Nat) :=
  match t.metadata.get cursorKey with
  | none => .ok none
  | some data => if data.length = 8 then .ok (some (ofIdKey data)) else .error (.database "Invalid cursor data")

/-- The store as it is found when opened again. Its id generator is kept in blocks of a
million and moves on two blocks, so the ids after a reopen start past the next block. -/
def reopen (t : TreeTables) : TreeTables :=
  { t with generated := (t.generated / 1000000 + 2) * 1000000 }

/-- Writes a value straight into the named tree, bypassing every check. -/
def writeRaw (t : TreeTables) (tree : String) (key value : List UInt8) : Option TreeTables :=
  match tree with
  | "users" => some { t with users := t.users.insert key value }
  | "users_by_address" => some { t with usersByAddress := t.usersByAddress.insert key value }
  | "pools" => some { t with pools := t.pools.insert key value }
  | "stakes" => some { t with stakes := t.stakes.insert key value }
  | "stakes_by_pool" => some { t with stakesByPool := t.stakesByPool.insert key value }
  | "active_stakes" => some { t with activeStakes := t.activeStakes.insert key value }
  | "operations" => some { t with operations := t.operations.insert key value }
  | "meta" => some { t with metadata := t.metadata.insert key value }
  | _ => none

end TreeTables

end PoolTreasury
