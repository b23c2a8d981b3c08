import PoolTreasury.Proofs.Stake.Lifecycle

/-! # Pool flags and the pools stakes belong to

A pool is activated only once its commission is paid, and nothing clears the flag after; a
new pool starts inactive. So every active pool has its commission paid.

A pool goes away only through `deletePool`, which checks that its reserve is zero, that it is
inactive and that every stake of it is settled. A stake is opened only in a pool that is there,
and never moves to another. So every stake still owed something, active or awaiting
settlement, belongs to a pool that is there.
-/

namespace PoolTreasury

namespace MemoryTables

variable {t t' : MemoryTables}

/-- A stake found in the tables is one of the stakes of its pool. -/
theorem mem_stakesOf {k : Nat} {st : Stake} (h : t.findStake k = some st) :
    st ∈ t.stakesOf st.poolId := by
  unfold stakesOf
  rw [List.mem_filter]
  exact ⟨List.mem_of_find?_eq_some h, by simp⟩

/-! ## Active pools have paid their commission -/

/-- Every active pool of the tables has its commission paid. -/
def ActivePaid (t : MemoryTables) : Prop :=
  ∀ k p, t.findPool k = some p → p.isActive = true → p.isCommissionPaid = true

theorem ActivePaid.of_findPool (h : t.ActivePaid) (heq : ∀ k, t'.findPool k = t.findPool k) :
    t'.ActivePaid :=
  fun k p hp => h k p ((heq k).symm.trans hp)

theorem Logged.activePaid (hl : t.Logged t') (h : t.ActivePaid) : t'.ActivePaid :=
  h.of_findPool (t.findPool_of_logged hl)

/-- One pool written with a record that is active only with its commission paid. -/
theorem ActivePaid.of_write (h : t.ActivePaid) {q : Pool}
    (hw : ∀ k, t'.findPool k = if q.id = k then some q else t.findPool k)
    (hpaid : q.isActive = true → q.isCommissionPaid = true) : t'.ActivePaid := by
  intro k p' hp'
  rw [hw] at hp'
  split at hp'
  · cases hp'
    exact hpaid
  · exact h k p' hp'

theorem ActivePaid.updatePool (h : t.ActivePaid) {q p : Pool} (hq : t.findPool q.id = some p)
    (hpaid : q.isActive = true → q.isCommissionPaid = true) : (t.updatePool q).2.ActivePaid :=
  h.of_write (findPool_updatePool t hq) hpaid

theorem ActivePaid.settleClaim (h : t.ActivePaid) {st prev : Stake} {q p : Pool}
    (hs : t.findStake st.id = some prev) (hq : t.findPool q.id = some p)
    (hpaid : q.isActive = true → q.isCommissionPaid = true) :
    (t.settleClaim st q).2.ActivePaid :=
  h.of_write (findPool_settleClaim t hs hq) hpaid

/-- A new pool that starts inactive. -/
theorem ActivePaid.savePool (h : t.ActivePaid) {q : Pool} (hq : q.isActive = false) :
    (t.savePool q).2.ActivePaid :=
  h.of_write (q := { q with id := t.lastId + 1 }) (findPool_savePool t q) fun hactive => by
    simp [hq] at hactive

theorem ActivePaid.deletePool (h : t.ActivePaid) {k : Nat} {p : Pool} (hp : t.findPool k = some p) :
    (t.deletePool k).2.ActivePaid := by
  intro k' p' hp'
  rw [findPool_deletePool t hp] at hp'
  split at hp'
  · cases hp'
  · exact h k' p' hp'

/-! ## Pools that stay -/

/-- Every pool of `t` is still found in `t'`. -/
def KeepsPools (t t' : MemoryTables) : Prop :=
  ∀ k p, t.findPool k = some p → ∃ p', t'.findPool k = some p'

theorem KeepsPools.refl (t : MemoryTables) : t.KeepsPools t :=
  fun _ p hp => ⟨p, hp⟩

theorem KeepsPools.trans {t'' : MemoryTables} (h : t.KeepsPools t') (h' : t'.KeepsPools t'') :
    t.KeepsPools t'' := by
  intro k p hp
  obtain ⟨p', hp'⟩ := h k p hp
  exact h' k p' hp'

theorem keepsPools_of_findPool (heq : ∀ k, t'.findPool k = t.findPool k) : t.KeepsPools t' :=
  fun k p hp => ⟨p, (heq k).trans hp⟩

/-- One pool written, every other kept. -/
theorem keepsPools_of_write {q : Pool}
    (hw : ∀ k, t'.findPool k = if q.id = k then some q else t.findPool k) : t.KeepsPools t' := by
  intro k p hp
  rw [hw]
  split
  · exact ⟨q, rfl⟩
  · exact ⟨p, hp⟩

theorem keepsPools_savePool (q : Pool) : t.KeepsPools (t.savePool q).2 :=
  keepsPools_of_write (q := { q with id := t.lastId + 1 }) (findPool_savePool t q)

theorem keepsPools_updatePool {q p₀ : Pool} (hq : t.findPool q.id = some p₀) :
    t.KeepsPools (t.updatePool q).2 :=
  keepsPools_of_write (findPool_updatePool t hq)

theorem keepsPools_settleClaim {st prev : Stake} {q p₀ : Pool}
    (hs : t.findStake st.id = some prev) (hq : t.findPool q.id = some p₀) :
    t.KeepsPools (t.settleClaim st q).2 :=
  keepsPools_of_write (findPool_settleClaim t hs hq)

/-! ## Stakes still owed belong to a pool -/

/-- Every stake of the tables not yet settled belongs to a pool that is there. -/
def OwedPooled (t : MemoryTables) : Prop :=
  ∀ k st, t.findStake k = some st → st.isSettled = false →
    ∃ p, t.findPool st.poolId = some p

end MemoryTables

open MemoryTables

theorem TickWrite.activePaid {now : Instant} {x : Stake} {t t' : MemoryTables}
    (hw : TickWrite now x t t') (h : t.ActivePaid) : t'.ActivePaid := by
  cases hw with
  | accrue _ _ _ _ _ | close _ _ _ _ => exact h.of_findPool (findPool_updateStake _ _)
  | refresh hp _ =>
    have hpaid := h _ _ hp
    exact h.updatePool (t.findPool_self hp :) hpaid
  | note hl => exact hl.activePaid h

theorem TickWrite.keepsPools {now : Instant} {x : Stake} {t t' : MemoryTables}
    (hw : TickWrite now x t t') : t.KeepsPools t' := by
  cases hw with
  | accrue _ _ _ _ _ | close _ _ _ _ => exact keepsPools_of_findPool (findPool_updateStake _ _)
  | refresh hp _ => exact keepsPools_updatePool (t.findPool_self hp :)
  | note hl => exact keepsPools_of_findPool (t.findPool_of_logged hl)

section Step

variable {op : LedgerOp} {s s' : RunState} {r : Outcome}

/-- Every step keeps every active pool's commission paid: `setActive` activates only a pool
that paid, a new pool is inactive, and no other write touches the two flags. -/
theorem OpStep.activePaid (hs : OpStep op s r s') (h : s.tables.ActivePaid) :
    s'.tables.ActivePaid := by
  cases hs with
  | quiet ht _ | claimSent _ ht _ => exact ht ▸ h
  | registerUser ht _ => exact ht ▸ h.of_findPool (findPool_saveUser _ _ _)
  | createPool _ _ hl _ => exact hl.activePaid (h.savePool rfl)
  | addReserve _ hp _ _ hl _ =>
    -- the topped-up pool keeps its two flags
    have hpaid := h _ _ hp
    exact hl.activePaid (h.updatePool (s.tables.findPool_self hp :) hpaid)
  | payCommission hp _ _ hl _ =>
    exact hl.activePaid (h.updatePool (s.tables.findPool_self hp :) fun _ => rfl)
  | setActive hp hpaid hl _ =>
    exact hl.activePaid (h.updatePool (s.tables.findPool_self hp :) hpaid)
  | deletePool hp _ _ _ hl _ => exact hl.activePaid (h.deletePool hp)
  | createStake _ _ _ _ _ _ _ hl _ => exact hl.activePaid (h.of_findPool (findPool_saveStake _ _))
  | tick hr _ => exact hr.invariant (fun _ hw h => hw.activePaid h) h
  | claimSettled hc _ _ hl _ =>
    have hpaid := h _ _ hc.pool
    exact hl.activePaid (h.settleClaim hc.findStake_paid (s.tables.findPool_self hc.pool :) hpaid)
  | withdraw hc hl _ =>
    have hpaid := h _ _ hc.pool
    exact hl.activePaid (h.updatePool (s.tables.findPool_self hc.pool :) hpaid)

/-- Every step keeps every pool but the one `deletePool` removes, and that one only when its
reserve is zero, it is inactive and every stake of it is settled; the removal touches no
stake. -/
theorem OpStep.pool_kept (hs : OpStep op s r s') {k : Nat} {p : Pool}
    (hp : s.tables.findPool k = some p) :
    (∃ p', s'.tables.findPool k = some p') ∨
      (op = .deletePool k ∧ p.reserve.isZero = true ∧ p.isActive = false ∧
        (∀ st ∈ s.tables.stakesOf k, st.isSettled = true) ∧
        ∀ j, s'.tables.findStake j = s.tables.findStake j) := by
  -- a write that keeps every pool, followed by an operation record
  have kept {t : MemoryTables} (hl : t.Logged s'.tables) (hk : s.tables.KeepsPools t) :
      ∃ p', s'.tables.findPool k = some p' := by
    obtain ⟨p', hp'⟩ := hk k p hp
    exact ⟨p', (findPool_of_logged _ hl k).trans hp'⟩
  cases hs with
  | quiet ht _ | claimSent _ ht _ => exact .inl ⟨p, by rw [ht]; exact hp⟩
  | registerUser ht _ => exact .inl ⟨p, by rw [ht, findPool_saveUser]; exact hp⟩
  | createPool _ _ hl _ => exact .inl (kept hl (keepsPools_savePool _))
  | addReserve _ hq _ _ hl _ | payCommission hq _ _ hl _ | setActive hq _ hl _ =>
    exact .inl (kept hl (keepsPools_updatePool (s.tables.findPool_self hq :)))
  | withdraw hc hl _ =>
    exact .inl (kept hl (keepsPools_updatePool (s.tables.findPool_self hc.pool :)))
  | @deletePool pid _ _ _ q hq hzero hinactive hsettled hl _ =>
    rw [findPool_of_logged _ hl, findPool_deletePool _ hq]
    split
    · -- the deleted pool is pool `k`, and it is the pool found
      rename_i hpid
      subst hpid
      rw [hq] at hp
      cases hp
      refine .inr ⟨rfl, hzero, hinactive, hsettled, fun j => ?_⟩
      rw [findStake_of_logged _ hl, findStake_deletePool]
    · exact .inl ⟨p, hp⟩
  | createStake _ _ _ _ _ _ _ hl _ =>
    exact .inl (kept hl (keepsPools_of_findPool (findPool_saveStake _ _)))
  | tick hr _ =>
    have hkeeps := hr.invariant (P := fun t => s.tables.KeepsPools t)
      (fun _ hw h => h.trans hw.keepsPools) (.refl _)
    exact .inl (hkeeps k p hp)
  | claimSettled hc _ _ hl _ =>
    exact .inl
      (kept hl (keepsPools_settleClaim hc.findStake_paid (s.tables.findPool_self hc.pool :)))

/-- Every step keeps every stake still owed in a pool that is there: a new stake is opened in
a pool that is there, a stake keeps its pool and its paid claims, and a pool is deleted only
when every stake of it is settled. -/
theorem OpStep.owedPooled (hs : OpStep op s r s')
    (hticks : ∀ callMs now, op = .tick callMs now → TickEnds now s r s') (hf : s.tables.Fresh)
    (h : s.tables.OwedPooled) : s'.tables.OwedPooled := by
  intro k st' h' hunsettled
  cases hk : s.tables.findStake k with
  | none =>
    -- a new stake, opened in a pool that was there, which no deletion can have removed
    obtain ⟨_, p, hp, _⟩ := hs.added hticks h' hk
    rcases hs.pool_kept hp with hkept | ⟨_, _, _, _, hsame⟩
    · exact hkept
    · rw [hsame, hk] at h'
      cases h'
  | some st =>
    obtain ⟨st'', h'', hmove⟩ := hs.stakeMove hticks hf hk
    rw [h'] at h''
    cases h''
    have hunsettled₀ := hmove.unsettled_of hunsettled
    obtain ⟨p, hp⟩ := h k st hk hunsettled₀
    rw [hmove.poolId_eq]
    rcases hs.pool_kept hp with hkept | ⟨_, _, _, hsettled, _⟩
    · exact hkept
    · -- the pool was deleted, so all its stakes were settled, this one among them
      rw [hsettled st (mem_stakesOf hk)] at hunsettled₀
      cases hunsettled₀

end Step

theorem RunState.Reachable.activePaid {s : RunState} (h : s.Reachable) : s.tables.ActivePaid :=
  RunState.Reachable.invariant (I := fun s => s.tables.ActivePaid)
    (fun _ _ _ _ hp => by cases hp) (fun _ _ _ _ h hs => hs.activePaid h) h

theorem RunState.Reachable.owedPooled {s : RunState} (h : s.Reachable) : s.tables.OwedPooled := by
  have hboth := RunState.Reachable.invariant_ticks
    (I := fun s => s.tables.Fresh ∧ s.tables.OwedPooled)
    (fun _ _ => ⟨fresh_empty, fun _ _ hs => by cases hs⟩)
    (fun _ _ _ _ h hs hticks => ⟨hs.fresh h.1, hs.owedPooled hticks h.1 h.2⟩) h
  exact hboth.2

/-- In every reachable state every active pool has its commission paid and every stake not
yet settled belongs to a pool that is there; and an operation removes a pool only when it is
`deletePool` of that pool, whose reserve was zero, which was inactive and every stake of which
was settled. -/
theorem pool_integrity {s : RunState} (h : s.Reachable) (op : LedgerOp) :
    (∀ k p, s.tables.findPool k = some p → p.isActive = true → p.isCommissionPaid = true) ∧
    (∀ k st, s.tables.findStake k = some st → st.isSettled = false →
      ∃ p, s.tables.findPool st.poolId = some p) ∧
    ∀ k p, s.tables.findPool k = some p → (op.exec s).2.tables.findPool k = none →
      op = .deletePool k ∧ p.reserve.isZero = true ∧ p.isActive = false ∧
      ∀ j st, s.tables.findStake j = some st → st.poolId = k → st.isSettled = true := by
  refine ⟨h.activePaid, h.owedPooled, fun k p hp hgone => ?_⟩
  rcases (op.exec_step s).pool_kept hp with ⟨p', hp'⟩ | ⟨hop, hzero, hinactive, hsettled, _⟩
  · rw [hgone] at hp'
    cases hp'
  · refine ⟨hop, hzero, hinactive, fun j st hj hpool => ?_⟩
    exact hsettled st (hpool ▸ mem_stakesOf hj)

/-- The integrity holds at the empty store, which a run of no operation reaches. -/
theorem pool_integrity_at_start :
    let s := RunState.start ⟨fun _ _ => none, fun _ _ => none, fun _ _ => none⟩ ⟨0, 0⟩
    (∀ k p, s.tables.findPool k = some p → p.isActive = true → p.isCommissionPaid = true) ∧
    (∀ k st, s.tables.findStake k = some st → st.isSettled = false →
      ∃ p, s.tables.findPool st.poolId = some p) ∧
    ∀ k p, s.tables.findPool k = some p → ((LedgerOp.deletePool 1).exec s).2.tables.findPool k = none →
      LedgerOp.deletePool 1 = .deletePool k ∧ p.reserve.isZero = true ∧ p.isActive = false ∧
      ∀ j st, s.tables.findStake j = some st → st.poolId = k → st.isSettled = true :=
  pool_integrity ⟨_, _, [], rfl⟩ _

end PoolTreasury
