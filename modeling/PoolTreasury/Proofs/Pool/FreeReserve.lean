import PoolTreasury.Proofs.Accrual.Pass
import PoolTreasury.Proofs.Settlement.Reserve

/-! # The cached free reserve

Every pool carries its free reserve, `tempReserve`, the reserve less what its closed and
unsettled stakes are owed. Each write that changes what that depends on recomputes it: adding
to the reserve, the accrual pass right after it closes a stake, and a settled claim, which
writes the paid stake and the pool together. A new pool owes nothing yet, so its free reserve
is its reserve. Opening a stake or letting one earn changes nothing it depends on: only closed
stakes are owed.

A withdrawal is the exception. It empties the reserve and caches the liabilities, negated, as
reckoned at the reserve it had before; the insurance on a stake is reckoned from the reserve
by another formula once the reserve is zero, and the two round differently. So an emptied
pool's cache may differ from its free reserve recomputed.

The other way a cache goes stale is an overflow in the accrual pass after a stake is closed
and before its pool is recomputed. On every run that no overflow cut short, each pool's cache
is its free reserve, or the pool was emptied by a withdrawal and caches the liabilities as
they stood then.

The stakes are kept in the order of their ids, each id once, and an upsert writes over the one
record of its id. The free reserve sums the liabilities in the order of the stakes, and a
decimal sum rounds, so the proofs compare the lists of owed stakes themselves.
-/

namespace PoolTreasury

/-! ## Upserts into a list ordered by key -/

section Upsert

variable {α : Type} (key : α → Nat)

/-- A record of an upsert is the written one or one that was there. -/
theorem mem_upsertBy {x z : α} {l : List α} (h : z ∈ upsertBy key x l) : z = x ∨ z ∈ l := by
  induction l with
  | nil => simpa [upsertBy] using h
  | cons y ys ih =>
    unfold upsertBy at h
    split at h
    · simpa using h
    · split at h
      · simp only [List.mem_cons] at h ⊢
        tauto
      · simp only [List.mem_cons] at h ⊢
        rcases h with h | h
        · exact .inr (.inl h)
        · rcases ih h with h | h
          · exact .inl h
          · exact .inr (.inr h)

/-- An upsert keeps a list ordered by strictly increasing keys so. -/
theorem pairwise_upsertBy (x : α) {l : List α} (hl : l.Pairwise (fun a b => key a < key b)) :
    (upsertBy key x l).Pairwise (fun a b => key a < key b) := by
  induction l with
  | nil => simp [upsertBy]
  | cons y ys ih =>
    rw [List.pairwise_cons] at hl
    obtain ⟨hy, hys⟩ := hl
    unfold upsertBy
    split
    · -- `x` goes in front of `y`
      rename_i hlt
      refine List.Pairwise.cons (fun z hz => ?_) (List.Pairwise.cons hy hys)
      rcases List.mem_cons.mp hz with rfl | hz
      · exact hlt
      · exact hlt.trans (hy z hz)
    · split
      · -- `x` takes the place of `y`
        rename_i _ heq
        exact List.Pairwise.cons (fun z hz => heq.trans_lt (hy z hz)) hys
      · -- `x` goes further on, past `y`
        rename_i hnlt hne
        refine List.Pairwise.cons (fun z hz => ?_) (ih hys)
        rcases mem_upsertBy key hz with rfl | hz
        · omega
        · exact hy z hz

/-- In a list ordered by strictly increasing keys, a record is the first of its key. -/
theorem find?_of_mem_pairwise {l : List α} (hl : l.Pairwise (fun a b => key a < key b)) {y : α}
    (hy : y ∈ l) : l.find? (fun z => key z == key y) = some y := by
  induction l with
  | nil => cases hy
  | cons z zs ih =>
    rw [List.pairwise_cons] at hl
    rcases List.mem_cons.mp hy with rfl | hy'
    · simp
    · have hne : key z ≠ key y := Nat.ne_of_lt (hl.1 y hy')
      simp [hne, ih hl.2 hy']

/-- Of a list ordered by key, an upsert of a record that `P` drops keeps what `P` kept, but the
record of the written key. -/
theorem filter_upsertBy {P : α → Bool} (x : α) {l : List α}
    (hl : l.Pairwise (fun a b => key a < key b)) (hx : P x = false) :
    (upsertBy key x l).filter P = l.filter (fun y => P y && key y != key x) := by
  induction l with
  | nil => simp [upsertBy, hx]
  | cons y ys ih =>
    rw [List.pairwise_cons] at hl
    obtain ⟨hy, hys⟩ := hl
    -- past `y`, no record has a key at or below `y`'s
    have hafter : ∀ k, k ≤ key y → ys.filter (fun z => P z && key z != k) = ys.filter P := by
      intro k hk
      apply List.filter_congr
      intro z hz
      have hne : key z ≠ k := by have := hy z hz; omega
      simp [hne]
    unfold upsertBy
    split
    · rename_i hlt
      have hne : key y ≠ key x := by omega
      simp [List.filter_cons, hx, hne, hafter _ hlt.le]
    · split
      · rename_i _ heq
        simp [hx, heq, hafter (key y) le_rfl]
      · rename_i _ hne
        have hne' : key y ≠ key x := fun h => hne h.symm
        simp [List.filter_cons, hne', ih hys]

end Upsert

namespace MemoryTables

variable {t t' : MemoryTables}

/-! ## Stakes in the order of their ids -/

/-- The stakes are kept in the order of their ids, each id once. -/
def Sorted (t : MemoryTables) : Prop := t.stakes.Pairwise (fun a b => a.id < b.id)

theorem Sorted.findStake_of_mem (h : t.Sorted) {st : Stake} (hst : st ∈ t.stakes) :
    t.findStake st.id = some st :=
  find?_of_mem_pairwise (fun st : Stake => st.id) h hst

theorem Sorted.of_stakes (h : t.Sorted) (heq : t'.stakes = t.stakes) : t'.Sorted := by
  unfold Sorted
  rw [heq]
  exact h

theorem Sorted.of_upsert (h : t.Sorted) {x : Stake}
    (heq : t'.stakes = upsertBy (·.id) x t.stakes) : t'.Sorted := by
  unfold Sorted
  rw [heq]
  exact pairwise_upsertBy (fun st : Stake => st.id) x h

theorem stakes_saveUser (a : String) (now : Instant) : (t.saveUser a now).2.stakes = t.stakes := by
  unfold saveUser; split <;> rfl

theorem stakes_savePool (q : Pool) : (t.savePool q).2.stakes = t.stakes := rfl

theorem stakes_updatePool (q : Pool) : (t.updatePool q).2.stakes = t.stakes := by
  unfold updatePool; split <;> rfl

theorem stakes_deletePool (k : Nat) : (t.deletePool k).2.stakes = t.stakes := by
  unfold deletePool; split <;> rfl

theorem stakes_saveStake (q : Stake) :
    (t.saveStake q).2.stakes = upsertBy (·.id) { q with id := t.lastId + 1 } t.stakes := rfl

theorem stakes_updateStake {q prev : Stake} (h : t.findStake q.id = some prev) :
    (t.updateStake q).2.stakes = upsertBy (·.id) q t.stakes := by
  rw [updateStake_of_found t h]

theorem stakes_settleClaim {q prev : Stake} {r p : Pool} (hs : t.findStake q.id = some prev)
    (hp : t.findPool r.id = some p) :
    (t.settleClaim q r).2.stakes = upsertBy (·.id) q t.stakes := by
  rw [settleClaim_of_found t hs hp]

/-! ## The stakes a pool owes -/

/-- Stake `st` is owed by pool `k`: it belongs to it and awaits settlement. -/
def owedIn (k : Nat) (st : Stake) : Bool := st.poolId == k && st.awaitsSettlement

/-- The stakes pool `k` owes, in the order of the store. -/
def owedOf (t : MemoryTables) (k : Nat) : List Stake := t.stakes.filter (owedIn k)

theorem owedIn_of_active {st : Stake} (h : st.isActive = true) (k : Nat) : owedIn k st = false := by
  simp [owedIn, h]

theorem owedIn_of_poolId_ne {st : Stake} {k : Nat} (h : st.poolId ≠ k) : owedIn k st = false := by
  simp [owedIn, h]

theorem owedIn_paid (st : Stake) (kind : ClaimKind) (k : Nat) :
    owedIn k (st.paid kind) = false := by
  cases kind <;> simp [owedIn, Stake.paid]

/-- What a pool's liabilities are reckoned over is the stakes it owes. -/
theorem owedStakes_stakesOf (t : MemoryTables) (p : Pool) :
    owedStakes p (t.stakesOf p.id) = t.owedOf p.id := by
  unfold owedStakes stakesOf owedOf
  rw [List.filter_filter]
  apply List.filter_congr
  intro st _
  simp only [owedIn]
  cases st.poolId == p.id <;> simp

theorem owedStakes_congr {q q' : Pool} (hid : q'.id = q.id)
    (howed : t'.owedOf q.id = t.owedOf q.id) :
    owedStakes q' (t'.stakesOf q'.id) = owedStakes q (t.stakesOf q.id) := by
  rw [owedStakes_stakesOf, owedStakes_stakesOf, hid, howed]

theorem owedOf_of_stakes (h : t'.stakes = t.stakes) (k : Nat) : t'.owedOf k = t.owedOf k := by
  unfold owedOf
  rw [h]

/-- Writing a stake that pool `k` does not owe over one it did not owe leaves what it owes. -/
theorem owedOf_upsert (hs : t.Sorted) {x : Stake} {k : Nat}
    (hstakes : t'.stakes = upsertBy (·.id) x t.stakes) (hx : owedIn k x = false)
    (hprev : ∀ y, t.findStake x.id = some y → owedIn k y = false) :
    t'.owedOf k = t.owedOf k := by
  unfold owedOf
  rw [hstakes, filter_upsertBy _ x hs hx]
  apply List.filter_congr
  intro y hy
  by_cases hid : y.id = x.id
  · -- the record written over is the one found under its id
    have hfound : t.findStake x.id = some y := hid ▸ hs.findStake_of_mem hy
    simp [hprev y hfound]
  · simp [hid]

/-- The same, for a write over stake `prev`. -/
theorem owedOf_write (hs : t.Sorted) {x prev : Stake} {k : Nat}
    (hstakes : t'.stakes = upsertBy (·.id) x t.stakes) (hfound : t.findStake x.id = some prev)
    (hx : owedIn k x = false) (hprev : owedIn k prev = false) : t'.owedOf k = t.owedOf k := by
  refine owedOf_upsert hs hstakes hx fun y hy => ?_
  rw [hfound] at hy
  cases hy
  exact hprev

theorem owedStakes_eq (q : Pool) (l : List Stake) : owedStakes q l = l.filter (owedIn q.id) := rfl

/-- What a pool owes after a claim settled one of its stakes, as the claim reckons it: the
pool's stakes with the paid one in its place. -/
theorem owedStakes_settled (t : MemoryTables) (q : Pool) (sid : Nat) (paid : Stake)
    (hpaid : owedIn q.id paid = false) :
    owedStakes q ((t.stakesOf q.id).map fun x => if x.id == sid then paid else x) =
      t.stakes.filter (fun y => owedIn q.id y && y.id != sid) := by
  -- the stakes still owed are not the claimed one, which the map alone replaces
  have hkeep : ∀ y ∈ t.stakes.filter (fun y => owedIn q.id y && y.id != sid),
      (if y.id == sid then paid else y) = y := by
    intro y hy
    simp only [List.mem_filter, Bool.and_eq_true, bne_iff_ne, ne_eq] at hy
    simp [hy.2.2]
  rw [owedStakes_eq, stakesOf, List.filter_map, List.filter_filter]
  calc _ = (t.stakes.filter fun y => owedIn q.id y && y.id != sid).map
        (fun x => if x.id == sid then paid else x) := by
        congr 1
        apply List.filter_congr
        intro y _
        by_cases hid : y.id = sid
        · simp [hid, hpaid]
        · cases h : y.poolId == q.id <;> simp [owedIn, h, hid]
    _ = _ := (List.map_congr_left hkeep).trans (List.map_id _)

end MemoryTables

/-! ## The free reserve reads only the reserve, the coating and the owed stakes -/

theorem outstandingLiability_congr {p q : Pool} {l l' : List Stake} (hres : p.reserve = q.reserve)
    (hcoat : p.coatingPercent = q.coatingPercent) (howed : owedStakes p l = owedStakes q l') :
    outstandingLiability p l = outstandingLiability q l' := by
  have hliability : stakeLiability p = stakeLiability q := by
    funext st
    simp only [stakeLiability, isInsuranceEligible, hres, hcoat]
  unfold outstandingLiability
  rw [howed, hliability]

theorem freeReserve_congr {p q : Pool} {l l' : List Stake} (hres : p.reserve = q.reserve)
    (hcoat : p.coatingPercent = q.coatingPercent) (howed : owedStakes p l = owedStakes q l') :
    freeReserve p l = freeReserve q l' := by
  unfold freeReserve
  rw [outstandingLiability_congr hres hcoat howed, hres]

/-- A pool that owes nothing has its whole reserve free. -/
theorem freeReserve_nil (p : Pool) : freeReserve p [] = p.reserve.sub Decimal.zero := rfl

/-- Taking zero off a decimal that is not zero gives it back as it is. -/
theorem Decimal.sub_zero_of_mantissa {d : Decimal} (h : d.mantissa ≠ 0) :
    d.sub Decimal.zero = .ok d := by
  simp [Decimal.sub, Decimal.sub?, Decimal.combine, h, Decimal.zero, Decimal.orOverflow]

namespace MemoryTables

variable {t t' : MemoryTables}

/-! ## Caches that are current -/

/-- The pool's cache is its free reserve over the tables' stakes. -/
def FreeCurrent (t : MemoryTables) (p : Pool) : Prop :=
  freeReserve p (t.stakesOf p.id) = .ok p.tempReserve

/-- The pool as a withdrawal leaves it: no reserve, and in the cache the negated liabilities
reckoned at the reserve it had before. -/
def FreeWithdrawn (t : MemoryTables) (p : Pool) : Prop :=
  p.reserve = Decimal.zero ∧
    ∃ r l, outstandingLiability { p with reserve := r } (t.stakesOf p.id) = .ok l ∧
      p.tempReserve = l.neg

def Cached (t : MemoryTables) (p : Pool) : Prop := t.FreeCurrent p ∨ t.FreeWithdrawn p

theorem FreeCurrent.cached {p : Pool} (h : t.FreeCurrent p) : t.Cached p := Or.inl h

theorem FreeWithdrawn.cached {p : Pool} (h : t.FreeWithdrawn p) : t.Cached p := Or.inr h

/-- Every pool of the tables has a current cache, or the one a withdrawal left. -/
def CachesSound (t : MemoryTables) : Prop := ∀ k p, t.findPool k = some p → t.Cached p

/-- A cache stays as good for a record with the same id, reserve, coating and cache, over
tables where the pool owes the same stakes. -/
theorem Cached.congr {p p' : Pool} (h : t.Cached p) (hid : p'.id = p.id)
    (hres : p'.reserve = p.reserve) (hcoat : p'.coatingPercent = p.coatingPercent)
    (htemp : p'.tempReserve = p.tempReserve) (howed : t'.owedOf p.id = t.owedOf p.id) :
    t'.Cached p' := by
  rcases h with hfree | ⟨hzero, r, l, hl, hneg⟩
  · left
    unfold FreeCurrent
    rw [freeReserve_congr hres hcoat (owedStakes_congr hid howed), hfree, htemp]
  · right
    refine ⟨hres.trans hzero, r, l, ?_, htemp.trans hneg⟩
    have hsame : outstandingLiability { p' with reserve := r } (t'.stakesOf p'.id) =
        outstandingLiability { p with reserve := r } (t.stakesOf p.id) :=
      outstandingLiability_congr rfl hcoat (owedStakes_congr hid howed)
    exact hsame.trans hl

theorem Cached.of_owed {p : Pool} (h : t.Cached p) (howed : t'.owedOf p.id = t.owedOf p.id) :
    t'.Cached p :=
  h.congr rfl rfl rfl rfl howed

/-- The caches stay sound when each pool is written with a good cache, or kept as it was and
owing the same stakes. -/
theorem CachesSound.of_pools (h : t.CachesSound)
    (hpool : ∀ k p', t'.findPool k = some p' →
      t'.Cached p' ∨ (t.findPool k = some p' ∧ t'.owedOf k = t.owedOf k)) :
    t'.CachesSound := by
  intro k p' hp'
  rcases hpool k p' hp' with hc | ⟨hp, howed⟩
  · exact hc
  · have hid : p'.id = k := t.findPool_id hp
    exact (h k p' hp).of_owed (hid ▸ howed)

/-- The caches stay sound when one pool is written with a good cache and every other pool owes
the same stakes. -/
theorem CachesSound.of_write (h : t.CachesSound) {q : Pool}
    (hw : ∀ k, t'.findPool k = if q.id = k then some q else t.findPool k) (hq : t'.Cached q)
    (howed : ∀ k, q.id ≠ k → t'.owedOf k = t.owedOf k) : t'.CachesSound := by
  refine h.of_pools fun k p' hp' => ?_
  rw [hw] at hp'
  split at hp'
  · cases hp'
    exact .inl hq
  · rename_i hk
    exact .inr ⟨hp', howed k hk⟩

theorem Logged.cachesSound (hl : t.Logged t') (h : t.CachesSound) : t'.CachesSound :=
  h.of_pools fun k _ hp' =>
    .inr ⟨(t.findPool_of_logged hl k).symm.trans hp',
      owedOf_of_stakes (t.stakes_of_logged hl) k⟩

theorem CachesSound.saveUser (h : t.CachesSound) (a : String) (now : Instant) :
    (t.saveUser a now).2.CachesSound :=
  h.of_pools fun k _ hp' =>
    .inr ⟨(t.findPool_saveUser a now k).symm.trans hp',
      owedOf_of_stakes (stakes_saveUser a now) k⟩

/-- A pool replaced by a record whose cache is good over the same stakes. -/
theorem CachesSound.updatePool (h : t.CachesSound) {q p : Pool} (hq : t.findPool q.id = some p)
    (hc : t.Cached q) : (t.updatePool q).2.CachesSound :=
  h.of_write (findPool_updatePool t hq) (hc.of_owed (owedOf_of_stakes (stakes_updatePool q) _))
    fun k _ => owedOf_of_stakes (stakes_updatePool q) k

theorem CachesSound.deletePool (h : t.CachesSound) {k : Nat} {p : Pool}
    (hp : t.findPool k = some p) :
    (t.deletePool k).2.CachesSound := by
  refine h.of_pools fun k' p' hp' => ?_
  rw [findPool_deletePool t hp] at hp'
  split at hp'
  · cases hp'
  · exact .inr ⟨hp', owedOf_of_stakes (stakes_deletePool k) k'⟩

/-- A new pool owes nothing yet: a cache equal to a reserve that is not zero is current. -/
theorem CachesSound.savePool (h : t.CachesSound) (hf : t.Fresh) (hs : t.Sorted) {q : Pool}
    (hq : q.reserve.mantissa ≠ 0) (htemp : q.tempReserve = q.reserve) :
    (t.savePool q).2.CachesSound := by
  -- no stake belongs to a pool under an id not given out yet
  have hnone : (t.savePool q).2.owedOf (t.lastId + 1) = [] := by
    rw [owedOf_of_stakes (stakes_savePool q), owedOf, List.filter_eq_nil_iff]
    intro st hst
    have hle := hf.stakePool (hs.findStake_of_mem hst)
    exact ne_true_of_eq_false (owedIn_of_poolId_ne (by omega))
  have hfree : (t.savePool q).2.FreeCurrent { q with id := t.lastId + 1 } := by
    unfold FreeCurrent
    have hsame :
        freeReserve { q with id := t.lastId + 1 } ((t.savePool q).2.stakesOf (t.lastId + 1)) =
          freeReserve { q with id := t.lastId + 1 } [] := by
      refine freeReserve_congr rfl rfl ?_
      rw [owedStakes_stakesOf]
      exact hnone
    rw [hsame, freeReserve_nil, Decimal.sub_zero_of_mantissa hq, htemp]
  exact h.of_write (q := { q with id := t.lastId + 1 }) (findPool_savePool t q) hfree.cached
    fun k _ => owedOf_of_stakes (stakes_savePool q) k

/-- A stake write that no pool owes, before or after, leaves every cache as good. -/
theorem CachesSound.updateStake (h : t.CachesSound) (hs : t.Sorted) {q prev : Stake}
    (hfound : t.findStake q.id = some prev) (hq : ∀ k, owedIn k q = false)
    (hprev : ∀ k, owedIn k prev = false) : (t.updateStake q).2.CachesSound :=
  h.of_pools fun k _ hp' => .inr ⟨by rwa [findPool_updateStake] at hp',
    owedOf_write hs (stakes_updateStake hfound) hfound (hq k) (hprev k)⟩

/-- A new stake that no pool owes leaves every cache as good. -/
theorem CachesSound.saveStake (h : t.CachesSound) (hf : t.Fresh) (hs : t.Sorted) {q : Stake}
    (hq : ∀ k, owedIn k q = false) : (t.saveStake q).2.CachesSound := by
  refine h.of_pools fun k _ hp' => .inr ⟨by rwa [findPool_saveStake] at hp', ?_⟩
  -- the new stake takes an id no stake has
  refine owedOf_upsert hs (stakes_saveStake q) (hq k) fun y hy => ?_
  rw [hf.findStake_next] at hy
  cases hy

end MemoryTables

open MemoryTables

/-! ## The accrual pass -/

theorem TickWrite.sorted {now : Instant} {x : Stake} {t t' : MemoryTables}
    (hw : TickWrite now x t t') (h : t.Sorted) : t'.Sorted := by
  cases hw with
  | accrue _ hs _ _ _ => exact h.of_upsert (stakes_updateStake (t.findStake_self hs :))
  | close _ hs _ _ => exact h.of_upsert (stakes_updateStake (t.findStake_self hs :))
  | refresh _ _ => exact h.of_stakes (stakes_updatePool _)
  | note hl => exact h.of_stakes (t.stakes_of_logged hl)

section Pass

variable {now : Instant} {priced : String → Decimal → Prop} {t₀ : MemoryTables}

/-- Handling a listed stake in full leaves every cache as good: a day of reward touches no
owed stake, and a closing is followed by the recomputation of its pool. -/
theorem TickTurn.cachesSound {x : Stake} {t t' : MemoryTables}
    (ht : TickTurn now priced x t t') (hx : t₀.findStake x.id = some x) (hlater : t₀.Later t)
    (hs : t.Sorted) (h : t.CachesSound) : t'.CachesSound := by
  cases ht with
  | skip => exact h
  | accrue _ hfound hactive _ _ =>
    exact h.updateStake hs (t.findStake_self hfound :) (owedIn_of_active hactive)
      (owedIn_of_active hactive)
  | @close t₃ st p price free _ hp _ hfound hactive hfree hl =>
    -- the stake found now is the listed one, in the listed stake's pool
    have hpool : st.poolId = x.poolId := by
      obtain ⟨st', hst', hkeeps⟩ := hlater.stake hx
      rw [hfound] at hst'
      cases hst'
      exact hkeeps.poolId
    have hpid : p.id = x.poolId := t.findPool_id hp
    have hself : t.findStake (st.closedAt now price).id = some st := t.findStake_self hfound
    have hq : (t.updateStake (st.closedAt now price)).2.findPool
        ({ p with tempReserve := free } : Pool).id = some p := by
      rw [findPool_updateStake]
      exact t.findPool_self hp
    have hstakes : ((t.updateStake (st.closedAt now price)).2.updatePool
        { p with tempReserve := free }).2.stakes =
          upsertBy (·.id) (st.closedAt now price) t.stakes := by
      rw [stakes_updatePool, stakes_updateStake hself]
    -- the closed stake's pool, with its free reserve just recomputed
    have hfresh : ((t.updateStake (st.closedAt now price)).2.updatePool
        { p with tempReserve := free }).2.FreeCurrent { p with tempReserve := free } := by
      unfold FreeCurrent
      rw [← hfree, ← hpid]
      exact freeReserve_congr rfl rfl
        (owedStakes_congr rfl (owedOf_of_stakes (stakes_updatePool _) _))
    refine hl.cachesSound (h.of_write (fun k => ?_) hfresh.cached fun k hk => ?_)
    · rw [findPool_updatePool _ hq, findPool_updateStake]
    · -- every other pool owes what it did
      have hne : st.poolId ≠ k := by
        rw [hpool, ← hpid]
        exact hk
      exact owedOf_write hs hstakes hself (owedIn_of_poolId_ne hne) (owedIn_of_poolId_ne hne)

/-- A whole pass over stakes listed at its start leaves every cache as good. -/
theorem TickPass.cachesSound {xs : List Stake} {t t' : MemoryTables}
    (hp : TickPass now priced xs t t') (hlisted : ∀ x ∈ xs, t₀.findStake x.id = some x)
    (hlater : t₀.Later t) (hs : t.Sorted) (h : t.CachesSound) : t'.CachesSound := by
  induction hp with
  | nil => exact h
  | @cons x xs t₁ t₂ t₃ hturn _ ih =>
    have hx := hlisted x List.mem_cons_self
    exact ih (fun y hy => hlisted y (List.mem_cons_of_mem _ hy))
      (hturn.invariant (P := fun t => t₀.Later t) (fun hw h => h.trans hw.later) hlater)
      (hturn.invariant (fun hw h => hw.sorted h) hs) (hturn.cachesSound hx hlater hs h)

end Pass

/-! ## Every step -/

section Step

variable {op : LedgerOp} {s s' : RunState} {r : Outcome}

theorem OpStep.sorted (hs : OpStep op s r s') (h : s.tables.Sorted) : s'.tables.Sorted := by
  cases hs with
  | quiet ht _ | claimSent _ ht _ => exact h.of_stakes (by rw [ht])
  | registerUser ht _ => exact h.of_stakes (by rw [ht, stakes_saveUser])
  | createPool _ _ hl _ => exact h.of_stakes (by rw [stakes_of_logged _ hl, stakes_savePool])
  | addReserve _ _ _ _ hl _ | payCommission _ _ _ hl _ | setActive _ _ hl _ | withdraw _ hl _ =>
    exact h.of_stakes (by rw [stakes_of_logged _ hl, stakes_updatePool])
  | deletePool _ _ _ _ hl _ => exact h.of_stakes (by rw [stakes_of_logged _ hl, stakes_deletePool])
  | createStake _ _ _ _ _ _ _ hl _ =>
    exact h.of_upsert (by rw [stakes_of_logged _ hl, stakes_saveStake])
  | tick hr _ => exact hr.invariant (fun _ hw h => hw.sorted h) h
  | claimSettled hc _ _ hl _ =>
    apply h.of_upsert
    rw [stakes_of_logged _ hl]
    exact stakes_settleClaim hc.findStake_paid (s.tables.findPool_self hc.pool :)

/-- Every step that ends without an overflow leaves every cache as good. -/
theorem OpStep.cachesSound {r : Except LedgerError Unit} (hs : OpStep op s (.ok r) s')
    (hticks : ∀ callMs now, op = .tick callMs now → TickEnds now s (.ok r) s')
    (hf : s.tables.Fresh) (hsorted : s.tables.Sorted) (h : s.tables.CachesSound) :
    s'.tables.CachesSound := by
  cases hs with
  | quiet ht _ => exact ht ▸ h
  | registerUser ht _ => exact ht ▸ h.saveUser _ _
  | createPool hvalid _ hl _ =>
    -- a pool is created with a reserve of at least one
    have hone := validateNewPool_reserveDeposit hvalid
    have hmantissa : _ ≠ 0 := fun h0 => by
      rw [Decimal.value_of_mantissa_zero h0] at hone
      norm_num at hone
    exact hl.cachesSound (h.savePool hf hsorted hmantissa rfl)
  | @addReserve _ _ _ _ _ p reserve free _ hp _ hfree hl _ =>
    have hc : s.tables.Cached { p with reserve, tempReserve := free } :=
      FreeCurrent.cached ((freeReserve_congr rfl rfl rfl).trans hfree)
    exact hl.cachesSound (h.updatePool (s.tables.findPool_self hp :) hc)
  | payCommission hp _ _ hl _ =>
    have hc := (h _ _ hp).congr rfl rfl rfl rfl rfl
    exact hl.cachesSound (h.updatePool (s.tables.findPool_self hp :) hc)
  | setActive hp _ hl _ =>
    have hc := (h _ _ hp).congr rfl rfl rfl rfl rfl
    exact hl.cachesSound (h.updatePool (s.tables.findPool_self hp :) hc)
  | deletePool hp _ _ _ hl _ => exact hl.cachesSound (h.deletePool hp)
  | createStake _ _ _ _ _ _ _ hl _ =>
    exact hl.cachesSound (h.saveStake hf hsorted (owedIn_of_active rfl))
  | tick _ _ =>
    obtain ⟨_, hpass⟩ := hticks _ _ rfl
    rcases r with e | ⟨⟩
    · exact hpass.elim
    · exact hpass.cachesSound (fun _ hx => findStake_of_mem_activeStakes hx) (.refl _) hsorted h
  | @claimSettled limits sid kind _ _ _ st p _ debit reserve free _ hc _ hfree hl _ =>
    have hpid : p.id = st.poolId := s.tables.findPool_id hc.pool
    have hsid : st.id = sid := s.tables.findStake_id hc.stake
    have hq : s.tables.findPool ({ p with reserve, tempReserve := free } : Pool).id = some p :=
      s.tables.findPool_self hc.pool
    have hstakes :
        (s.tables.settleClaim (st.paid kind) { p with reserve, tempReserve := free }).2.stakes =
          upsertBy (·.id) (st.paid kind) s.tables.stakes :=
      stakes_settleClaim hc.findStake_paid hq
    -- the claimed stake's pool, recomputed over its stakes with this one paid
    have hfresh :
        (s.tables.settleClaim (st.paid kind) { p with reserve, tempReserve := free }).2.FreeCurrent
          { p with reserve, tempReserve := free } := by
      unfold FreeCurrent
      rw [← hfree]
      refine freeReserve_congr rfl rfl ?_
      rw [owedStakes_settled _ _ sid _ (owedIn_paid st kind _), owedStakes_stakesOf, owedOf,
        hstakes, filter_upsertBy _ _ hsorted (owedIn_paid st kind _), Stake.paid_id, hsid]
    refine hl.cachesSound
      (h.of_write (findPool_settleClaim _ hc.findStake_paid hq) hfresh.cached fun k hk => ?_)
    -- every other pool owes what it did
    have hne : st.poolId ≠ k := by
      rw [← hpid]
      exact hk
    exact owedOf_write hsorted hstakes hc.findStake_paid (owedIn_paid st kind k)
      (owedIn_of_poolId_ne hne)
  | @withdraw _ pid _ _ _ _ p liabilities _ _ hc hl _ =>
    -- the liabilities as reckoned at the reserve before the withdrawal
    have hpid : p.id = pid := s.tables.findPool_id hc.pool
    have hc' : s.tables.Cached (p.emptied liabilities) := by
      refine FreeWithdrawn.cached ⟨rfl, p.reserve, liabilities, ?_, rfl⟩
      refine (outstandingLiability_congr rfl rfl ?_).trans hc.owed
      rw [← hpid]
      rfl
    exact hl.cachesSound (h.updatePool (s.tables.findPool_self hc.pool :) hc')

end Step

end PoolTreasury
