import PoolTreasury.Proofs.Run.Invariant

/-! # Ids, and what a record keeps

The store gives out every id from one counter, so every id in use is at most the last one
given out (`MemoryTables.Fresh`). A record saved under a new id therefore never replaces
another, and the id of a deleted pool is never used again.

A stake keeps the terms it was opened with for good: its pool, its principal and its opening
price. A claim once paid stays paid, and a closed stake stays closed with its closing price
and its balance. A pool keeps its owner, its token and its terms. `MemoryTables.Later t t'`
collects these facts between a state and any later one; every step is such a pair, and so is
every run.
-/

namespace PoolTreasury

/-! ## What a paid claim changes -/

@[simp] theorem Stake.paid_poolId (st : Stake) (kind : ClaimKind) : (st.paid kind).poolId = st.poolId := by
  cases kind <;> rfl

@[simp] theorem Stake.paid_amount (st : Stake) (kind : ClaimKind) : (st.paid kind).amount = st.amount := by
  cases kind <;> rfl

@[simp] theorem Stake.paid_balance (st : Stake) (kind : ClaimKind) :
    (st.paid kind).balance = st.balance := by
  cases kind <;> rfl

/-- The stake a claim settles is found under the id of the paid record. -/
theorem ClaimChecks.findStake_paid {t : MemoryTables} {sid : Nat} {kind : ClaimKind} {st : Stake}
    {p : Pool} {payout debit : Decimal} {u : User} (hc : ClaimChecks t sid kind st p payout debit u) :
    t.findStake (st.paid kind).id = some st := by
  rw [Stake.paid_id, t.findStake_id hc.stake]
  exact hc.stake

namespace MemoryTables

/-- Every id in use, the pool a stake belongs to included, is at most the last id given out. -/
structure Fresh (t : MemoryTables) : Prop where
  pool : ∀ {k p}, t.findPool k = some p → k ≤ t.lastId
  stake : ∀ {k st}, t.findStake k = some st → k ≤ t.lastId
  stakePool : ∀ {k st}, t.findStake k = some st → st.poolId ≤ t.lastId

theorem fresh_empty : Fresh {} where
  pool h := by cases h
  stake h := by cases h
  stakePool h := by cases h

namespace Fresh

variable {t : MemoryTables} (h : t.Fresh)
include h

/-- The next id is not a stake's. -/
theorem findStake_next : t.findStake (t.lastId + 1) = none := by
  cases hs : t.findStake (t.lastId + 1) with
  | none => rfl
  | some st => exact absurd (h.stake hs) (by omega)

theorem saveUser (a : String) (now : Instant) : (t.saveUser a now).2.Fresh where
  pool hk := by
    rw [findPool_saveUser] at hk
    exact (h.pool hk).trans (lastId_saveUser_le t a now)
  stake hk := by
    rw [findStake_saveUser] at hk
    exact (h.stake hk).trans (lastId_saveUser_le t a now)
  stakePool hk := by
    rw [findStake_saveUser] at hk
    exact (h.stakePool hk).trans (lastId_saveUser_le t a now)

theorem savePool (q : Pool) : (t.savePool q).2.Fresh where
  pool {k p} hk := by
    rw [findPool_savePool] at hk
    rw [lastId_savePool]
    split at hk
    · omega
    · exact Nat.le_succ_of_le (h.pool hk)
  stake hk := by
    rw [findStake_savePool] at hk
    exact Nat.le_succ_of_le (h.stake hk)
  stakePool hk := by
    rw [findStake_savePool] at hk
    exact Nat.le_succ_of_le (h.stakePool hk)

theorem updatePool {q p : Pool} (hp : t.findPool q.id = some p) : (t.updatePool q).2.Fresh where
  pool {k p'} hk := by
    rw [lastId_updatePool]
    rcases t.eq_or_findPool_of_write (findPool_updatePool t hp) hk with ⟨hid, -⟩ | hk
    · exact hid ▸ h.pool hp
    · exact h.pool hk
  stake hk := by
    rw [findStake_updatePool] at hk
    rw [lastId_updatePool]
    exact h.stake hk
  stakePool hk := by
    rw [findStake_updatePool] at hk
    rw [lastId_updatePool]
    exact h.stakePool hk

theorem deletePool {k : Nat} {p : Pool} (hp : t.findPool k = some p) :
    (t.deletePool k).2.Fresh where
  pool {k' p'} hk := by
    rw [findPool_deletePool t hp] at hk
    rw [lastId_deletePool]
    split at hk
    · cases hk
    · exact h.pool hk
  stake hk := by
    rw [findStake_deletePool] at hk
    rw [lastId_deletePool]
    exact h.stake hk
  stakePool hk := by
    rw [findStake_deletePool] at hk
    rw [lastId_deletePool]
    exact h.stakePool hk

/-- A new stake belongs to a pool whose id was given out. -/
theorem saveStake {q : Stake} (hq : q.poolId ≤ t.lastId) : (t.saveStake q).2.Fresh where
  pool hk := by
    rw [findPool_saveStake] at hk
    exact Nat.le_succ_of_le (h.pool hk)
  stake {k st} hk := by
    rw [findStake_saveStake] at hk
    rw [lastId_saveStake]
    split at hk
    · omega
    · exact Nat.le_succ_of_le (h.stake hk)
  stakePool {k st} hk := by
    rw [findStake_saveStake] at hk
    rw [lastId_saveStake]
    split at hk
    · cases hk
      exact Nat.le_succ_of_le hq
    · exact Nat.le_succ_of_le (h.stakePool hk)

/-- A stake written over one that exists keeps its pool. -/
theorem updateStake {q st : Stake} (hs : t.findStake q.id = some st) (hq : q.poolId = st.poolId) :
    (t.updateStake q).2.Fresh where
  pool hk := by
    rw [findPool_updateStake] at hk
    rw [lastId_updateStake]
    exact h.pool hk
  stake {k st'} hk := by
    rw [lastId_updateStake]
    rcases t.eq_or_findStake_of_write (findStake_updateStake t hs) hk with ⟨hid, -⟩ | hk
    · exact hid ▸ h.stake hs
    · exact h.stake hk
  stakePool {k st'} hk := by
    rw [lastId_updateStake]
    rcases t.eq_or_findStake_of_write (findStake_updateStake t hs) hk with ⟨-, rfl⟩ | hk
    · exact hq ▸ h.stakePool hs
    · exact h.stakePool hk

theorem settleClaim {q st : Stake} {r p : Pool} (hs : t.findStake q.id = some st)
    (hq : q.poolId = st.poolId) (hp : t.findPool r.id = some p) :
    (t.settleClaim q r).2.Fresh where
  pool {k p'} hk := by
    rw [lastId_settleClaim]
    rcases t.eq_or_findPool_of_write (findPool_settleClaim t hs hp) hk with ⟨hid, -⟩ | hk
    · exact hid ▸ h.pool hp
    · exact h.pool hk
  stake {k st'} hk := by
    rw [lastId_settleClaim]
    rcases t.eq_or_findStake_of_write (findStake_settleClaim t hs hp) hk with ⟨hid, -⟩ | hk
    · exact hid ▸ h.stake hs
    · exact h.stake hk
  stakePool {k st'} hk := by
    rw [lastId_settleClaim]
    rcases t.eq_or_findStake_of_write (findStake_settleClaim t hs hp) hk with ⟨-, rfl⟩ | hk
    · exact hq ▸ h.stakePool hs
    · exact h.stakePool hk

end Fresh

/-- An operation record changes no id in use. -/
theorem Logged.fresh {t t' : MemoryTables} (hl : t.Logged t') (h : t.Fresh) : t'.Fresh where
  pool hk := by
    rw [t.findPool_of_logged hl] at hk
    rw [t.lastId_of_logged hl]
    exact Nat.le_succ_of_le (h.pool hk)
  stake hk := by
    rw [t.findStake_of_logged hl] at hk
    rw [t.lastId_of_logged hl]
    exact Nat.le_succ_of_le (h.stake hk)
  stakePool hk := by
    rw [t.findStake_of_logged hl] at hk
    rw [t.lastId_of_logged hl]
    exact Nat.le_succ_of_le (h.stakePool hk)

end MemoryTables

open MemoryTables

theorem TickWrite.fresh {now : Instant} {x : Stake} {t t' : MemoryTables}
    (hw : TickWrite now x t t') (h : t.Fresh) : t'.Fresh := by
  cases hw with
  | accrue _ hs _ _ _ => exact h.updateStake (t.findStake_self hs :) rfl
  | close _ hs _ _ => exact h.updateStake (t.findStake_self hs :) rfl
  | refresh hp _ => exact h.updatePool (t.findPool_self hp :)
  | note hl => exact hl.fresh h

/-- Every step keeps the ids fresh. -/
theorem OpStep.fresh {op : LedgerOp} {s s' : RunState} {r : Outcome} (hs : OpStep op s r s')
    (h : s.tables.Fresh) : s'.tables.Fresh := by
  cases hs with
  | quiet ht _ => exact ht ▸ h
  | registerUser ht _ => exact ht ▸ h.saveUser _ _
  | createPool _ _ hl _ => exact hl.fresh (h.savePool _)
  | addReserve _ hp _ _ hl _ =>
    exact hl.fresh (h.updatePool (s.tables.findPool_self hp :))
  | payCommission hp _ _ hl _ =>
    exact hl.fresh (h.updatePool (s.tables.findPool_self hp :))
  | setActive hp _ hl _ =>
    exact hl.fresh (h.updatePool (s.tables.findPool_self hp :))
  | deletePool hp _ _ _ hl _ => exact hl.fresh (h.deletePool hp)
  | createStake _ _ _ hp _ _ _ hl _ => exact hl.fresh (h.saveStake (h.pool hp))
  | tick hr _ => exact hr.invariant (fun _ hw h => hw.fresh h) h
  | claimSent _ ht _ => exact ht ▸ h
  | claimSettled hc _ _ hl _ =>
    exact hl.fresh
      (h.settleClaim hc.findStake_paid (Stake.paid_poolId _ _) (s.tables.findPool_self hc.pool :))
  | withdraw hc hl _ =>
    exact hl.fresh (h.updatePool (s.tables.findPool_self hc.pool :))

theorem RunState.Reachable.fresh {s : RunState} (h : s.Reachable) : s.tables.Fresh :=
  RunState.Reachable.invariant (I := fun s => s.tables.Fresh) (fun _ _ => fresh_empty)
    (fun _ _ _ _ h hs => hs.fresh h) h

/-! ## What records keep -/

/-- What stake `st'` keeps of an earlier record `st` of the same stake: the pool, the
principal and the opening price, a raised claim flag, and once closed, the closing price and
the balance. -/
structure Stake.Keeps (st st' : Stake) : Prop where
  poolId : st'.poolId = st.poolId
  amount : st'.amount = st.amount
  openPrice : st'.openPrice = st.openPrice
  rewardPaid : st.isRewardPaid = true → st'.isRewardPaid = true
  insurancePaid : st.isInsurancePaid = true → st'.isInsurancePaid = true
  closed : st.isActive = false →
    st'.isActive = false ∧ st'.closePrice = st.closePrice ∧ st'.balance = st.balance

namespace Stake

theorem Keeps.refl (st : Stake) : st.Keeps st :=
  ⟨rfl, rfl, rfl, fun h => h, fun h => h, fun h => ⟨h, rfl, rfl⟩⟩

theorem Keeps.trans {st st' st'' : Stake} (h : st.Keeps st') (h' : st'.Keeps st'') :
    st.Keeps st'' where
  poolId := h'.poolId.trans h.poolId
  amount := h'.amount.trans h.amount
  openPrice := h'.openPrice.trans h.openPrice
  rewardPaid := h'.rewardPaid ∘ h.rewardPaid
  insurancePaid := h'.insurancePaid ∘ h.insurancePaid
  closed hc := by
    obtain ⟨hc', hprice', hbalance'⟩ := h.closed hc
    obtain ⟨hc'', hprice'', hbalance''⟩ := h'.closed hc'
    exact ⟨hc'', hprice''.trans hprice', hbalance''.trans hbalance'⟩

/-- Only an active stake earns. -/
theorem keeps_balance {st : Stake} (h : st.isActive = true) (next : Decimal) :
    st.Keeps { st with balance := next } :=
  ⟨rfl, rfl, rfl, fun h => h, fun h => h, fun hc => by rw [h] at hc; cases hc⟩

/-- Only an active stake is closed. -/
theorem keeps_closedAt {st : Stake} (h : st.isActive = true) (now : Instant) (price : Decimal) :
    st.Keeps (st.closedAt now price) :=
  ⟨rfl, rfl, rfl, fun h => h, fun h => h, fun hc => by rw [h] at hc; cases hc⟩

theorem keeps_paid (st : Stake) (kind : ClaimKind) : st.Keeps (st.paid kind) := by
  cases kind with
  | reward => exact ⟨rfl, rfl, rfl, fun _ => rfl, fun h => h, fun h => ⟨h, rfl, rfl⟩⟩
  | insurance => exact ⟨rfl, rfl, rfl, fun h => h, fun _ => rfl, fun h => ⟨h, rfl, rfl⟩⟩

end Stake

/-- What pool `p'` keeps of an earlier record `p` of the same pool: its owner, its token and
its terms. -/
structure Pool.Keeps (p p' : Pool) : Prop where
  ownerId : p'.ownerId = p.ownerId
  tokenMaster : p'.tokenMaster = p.tokenMaster
  rewardPercent : p'.rewardPercent = p.rewardPercent
  periodDays : p'.periodDays = p.periodDays
  coatingPercent : p'.coatingPercent = p.coatingPercent

theorem Pool.Keeps.refl (p : Pool) : p.Keeps p := ⟨rfl, rfl, rfl, rfl, rfl⟩

theorem Pool.Keeps.trans {p p' p'' : Pool} (h : p.Keeps p') (h' : p'.Keeps p'') : p.Keeps p'' :=
  ⟨h'.ownerId.trans h.ownerId, h'.tokenMaster.trans h.tokenMaster,
    h'.rewardPercent.trans h.rewardPercent, h'.periodDays.trans h.periodDays,
    h'.coatingPercent.trans h.coatingPercent⟩

namespace MemoryTables

/-- What a later state `t'` of the store keeps of `t`: the id counter has not gone back, every
stake is still there and keeps what it settled, and a pool whose id had been given out by `t`
was there in `t` and keeps its terms. -/
structure Later (t t' : MemoryTables) : Prop where
  lastId : t.lastId ≤ t'.lastId
  stake : ∀ {k st}, t.findStake k = some st → ∃ st', t'.findStake k = some st' ∧ st.Keeps st'
  pool : ∀ {k p'}, t'.findPool k = some p' → k ≤ t.lastId → ∃ p, t.findPool k = some p ∧ p.Keeps p'

theorem Later.refl (t : MemoryTables) : t.Later t :=
  ⟨le_rfl, fun hs => ⟨_, hs, .refl _⟩, fun hp _ => ⟨_, hp, .refl _⟩⟩

theorem Later.trans {t t' t'' : MemoryTables} (h : t.Later t') (h' : t'.Later t'') :
    t.Later t'' where
  lastId := h.lastId.trans h'.lastId
  stake hs := by
    obtain ⟨st', hs', hk⟩ := h.stake hs
    obtain ⟨st'', hs'', hk'⟩ := h'.stake hs'
    exact ⟨st'', hs'', hk.trans hk'⟩
  pool hp'' hid := by
    obtain ⟨p', hp', hk'⟩ := h'.pool hp'' (hid.trans h.lastId)
    obtain ⟨p, hp, hk⟩ := h.pool hp' hid
    exact ⟨p, hp, hk.trans hk'⟩

variable {t : MemoryTables}

/-- A write that leaves the stakes and the counter alone and replaces pools only by records
that keep their terms. -/
theorem later_of_pools {t' : MemoryTables} (hlast : t'.lastId = t.lastId)
    (hstakes : ∀ k, t'.findStake k = t.findStake k)
    (hpool : ∀ {k p'}, t'.findPool k = some p' → ∃ p, t.findPool k = some p ∧ p.Keeps p') :
    t.Later t' where
  lastId := hlast.ge
  stake {k st} hs := ⟨st, (hstakes k).trans hs, .refl st⟩
  pool hp _ := hpool hp

/-- A write that leaves the pools and the counter alone and replaces stakes only by records
that keep what they settled. -/
theorem later_of_stakes {t' : MemoryTables} (hlast : t'.lastId = t.lastId)
    (hpools : ∀ k, t'.findPool k = t.findPool k)
    (hstake : ∀ {k st}, t.findStake k = some st → ∃ st', t'.findStake k = some st' ∧ st.Keeps st') :
    t.Later t' where
  lastId := hlast.ge
  stake := hstake
  pool {k p'} hp _ := ⟨p', (hpools k).symm.trans hp, .refl p'⟩

theorem Logged.later {t' : MemoryTables} (hl : t.Logged t') : t.Later t' where
  lastId := (t.lastId_of_logged hl).ge.trans' (Nat.le_succ _)
  stake {k st} hs := ⟨st, (t.findStake_of_logged hl k).trans hs, .refl st⟩
  pool {k p'} hp _ := ⟨p', (t.findPool_of_logged hl k).symm.trans hp, .refl p'⟩

theorem later_saveUser (a : String) (now : Instant) : t.Later (t.saveUser a now).2 where
  lastId := t.lastId_saveUser_le a now
  stake {k st} hs := ⟨st, (t.findStake_saveUser a now k).trans hs, .refl st⟩
  pool {k p'} hp _ := ⟨p', (t.findPool_saveUser a now k).symm.trans hp, .refl p'⟩

/-- A new pool takes an id that had not been given out. -/
theorem later_savePool (q : Pool) : t.Later (t.savePool q).2 where
  lastId := Nat.le_succ _
  stake {k st} hs := ⟨st, (t.findStake_savePool q k).trans hs, .refl st⟩
  pool {k p'} hp hid := by
    rw [findPool_savePool] at hp
    rw [if_neg (by omega)] at hp
    exact ⟨p', hp, .refl p'⟩

theorem later_updatePool {q p : Pool} (hp : t.findPool q.id = some p) (hk : p.Keeps q) :
    t.Later (t.updatePool q).2 := by
  refine later_of_pools (t.lastId_updatePool q) (t.findStake_updatePool q) ?_
  intro k p' hp'
  rcases t.eq_or_findPool_of_write (findPool_updatePool t hp) hp' with ⟨hid, rfl⟩ | hp'
  · exact ⟨p, hid ▸ hp, hk⟩
  · exact ⟨p', hp', .refl p'⟩

theorem later_deletePool {k : Nat} {p : Pool} (hp : t.findPool k = some p) :
    t.Later (t.deletePool k).2 := by
  refine later_of_pools (t.lastId_deletePool k) (t.findStake_deletePool k) ?_
  intro k' p' hp'
  rw [findPool_deletePool t hp] at hp'
  split at hp'
  · cases hp'
  · exact ⟨p', hp', .refl p'⟩

/-- A new stake takes an id no stake has. -/
theorem later_saveStake (h : t.Fresh) (q : Stake) : t.Later (t.saveStake q).2 where
  lastId := Nat.le_succ _
  stake {k st} hs := by
    refine ⟨st, ?_, .refl st⟩
    rw [findStake_saveStake, if_neg (by have := h.stake hs; omega)]
    exact hs
  pool {k p'} hp _ := ⟨p', (t.findPool_saveStake q k).symm.trans hp, .refl p'⟩

theorem later_updateStake {q st : Stake} (hs : t.findStake q.id = some st) (hk : st.Keeps q) :
    t.Later (t.updateStake q).2 := by
  refine later_of_stakes (t.lastId_updateStake q) (t.findPool_updateStake q) ?_
  intro k st' hs'
  rw [findStake_updateStake t hs]
  split
  · rename_i hid
    rw [← hid, hs] at hs'
    cases hs'
    exact ⟨q, rfl, hk⟩
  · exact ⟨st', hs', .refl st'⟩

theorem later_settleClaim {q st : Stake} {r p : Pool} (hs : t.findStake q.id = some st)
    (hk : st.Keeps q) (hp : t.findPool r.id = some p) (hpk : p.Keeps r) :
    t.Later (t.settleClaim q r).2 where
  lastId := (t.lastId_settleClaim q r).ge
  stake {k st'} hs' := by
    rw [findStake_settleClaim t hs hp]
    split
    · rename_i hid
      rw [← hid, hs] at hs'
      cases hs'
      exact ⟨q, rfl, hk⟩
    · exact ⟨st', hs', .refl st'⟩
  pool {k p'} hp' _ := by
    rcases t.eq_or_findPool_of_write (findPool_settleClaim t hs hp) hp' with ⟨hid, rfl⟩ | hp'
    · exact ⟨p, hid ▸ hp, hpk⟩
    · exact ⟨p', hp', .refl p'⟩

end MemoryTables

theorem TickWrite.later {now : Instant} {x : Stake} {t t' : MemoryTables}
    (hw : TickWrite now x t t') : t.Later t' := by
  cases hw with
  | accrue _ hs hactive _ _ =>
    exact later_updateStake (t.findStake_self hs :) (Stake.keeps_balance hactive _)
  | close _ hs hactive _ =>
    exact later_updateStake (t.findStake_self hs :) (Stake.keeps_closedAt hactive _ _)
  | refresh hp _ => exact later_updatePool (t.findPool_self hp :) ⟨rfl, rfl, rfl, rfl, rfl⟩
  | note hl => exact hl.later

/-- Every step from a state with fresh ids is followed by a later state. -/
theorem OpStep.later {op : LedgerOp} {s s' : RunState} {r : Outcome} (hs : OpStep op s r s')
    (h : s.tables.Fresh) : s.tables.Later s'.tables := by
  cases hs with
  | quiet ht _ => exact ht ▸ .refl _
  | registerUser ht _ => exact ht ▸ later_saveUser _ _
  | createPool _ _ hl _ => exact (later_savePool _).trans hl.later
  | addReserve _ hp _ _ hl _ =>
    refine .trans ?_ hl.later
    exact later_updatePool (s.tables.findPool_self hp :) ⟨rfl, rfl, rfl, rfl, rfl⟩
  | payCommission hp _ _ hl _ =>
    refine .trans ?_ hl.later
    exact later_updatePool (s.tables.findPool_self hp :) ⟨rfl, rfl, rfl, rfl, rfl⟩
  | setActive hp _ hl _ =>
    refine .trans ?_ hl.later
    exact later_updatePool (s.tables.findPool_self hp :) ⟨rfl, rfl, rfl, rfl, rfl⟩
  | deletePool hp _ _ _ hl _ => exact (later_deletePool hp).trans hl.later
  | createStake _ _ _ _ _ _ _ hl _ => exact (later_saveStake h _).trans hl.later
  | tick hr _ => exact hr.invariant (fun _ hw h => h.trans hw.later) (.refl _)
  | claimSent _ ht _ => exact ht ▸ .refl _
  | claimSettled hc _ _ hl _ =>
    refine .trans ?_ hl.later
    exact later_settleClaim hc.findStake_paid (Stake.keeps_paid _ _)
      (s.tables.findPool_self hc.pool :) ⟨rfl, rfl, rfl, rfl, rfl⟩
  | withdraw hc hl _ =>
    refine .trans ?_ hl.later
    exact later_updatePool (s.tables.findPool_self hc.pool :) ⟨rfl, rfl, rfl, rfl, rfl⟩

/-- Whatever runs after a reachable state ends in a later state. -/
theorem RunState.Reachable.later {s : RunState} (h : s.Reachable) :
    ∀ ops, s.tables.Later (s.runOps ops).tables := by
  intro ops
  induction ops generalizing s with
  | nil => exact .refl _
  | cons op ops ih =>
    exact ((op.exec_step s).later h.fresh).trans (ih (h.exec op))

end PoolTreasury
