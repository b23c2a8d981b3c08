import PoolTreasury.Proofs.Ledger.Identity
import PoolTreasury.Proofs.Accrual.DailyStep

/-! # Balances stay between the principal and the cap

In every state a run reaches, every stake's balance is at least its principal and at most the
cap its pool's terms give it; a stake whose cap does not fit a decimal has earned nothing. The
accrual pass never lowers a balance.

The bounds rest on facts that only the creating operations check: `createPool` refuses a
reward rate below one percent, and `createStake` a principal that is not positive. A pool's
terms and a stake's principal and pool never change afterwards, and a pool's id is never
reused, so the cap a stake was checked against is the cap it has for good. The only write of
a balance is a day of accrual, and one day moves the balance up towards the cap without
passing it (`nextBalance_bounds`).
-/

namespace PoolTreasury

open Decimal MemoryTables

/-- A pool that passes the checks of `createPool` pays at least one percent a day. -/
theorem validateNewPool_rewardPercent {params : NewPool} (h : validateNewPool params = none) :
    1 ≤ params.rewardPercent.value := by
  unfold validateNewPool at h
  split at h
  · cases h
  split at h
  · cases h
  split at h
  · cases h
  rename_i hrate
  have hmin : ¬ params.rewardPercent < minRewardPercent := fun hlt => hrate (by simp [hlt])
  simpa [minRewardPercent] using le_iff_value_le.mp (not_lt_iff_le.mp hmin)

/-- A day of accrual is computed only under a cap that fits. -/
theorem accrualCap_of_nextBalance {p : Pool} {st : Stake} {next : Option Decimal}
    (h : nextBalance p st = .ok next) :
    ∃ cap, accrualCap st.amount p.rewardPercent p.periodDays = .ok cap := by
  obtain ⟨cap, hcap, -⟩ := bind_eq_ok_iff.mp h
  exact ⟨cap, hcap⟩

/-- Where a stake's balance stands against the cap of pool `p`: at most the cap, or exactly
the principal when the cap does not fit a decimal. -/
def Stake.Bounded (st : Stake) (p : Pool) : Prop :=
  (∀ cap, accrualCap st.amount p.rewardPercent p.periodDays = .ok cap → st.balance ≤ cap) ∧
    ∀ o, accrualCap st.amount p.rewardPercent p.periodDays = .error o → st.balance = st.amount

/-- The bound reads only the principal, the balance and the pool's terms. -/
theorem Stake.Bounded.congr {st st' : Stake} {p p' : Pool} (h : st.Bounded p)
    (ha : st'.amount = st.amount) (hb : st'.balance = st.balance)
    (hr : p'.rewardPercent = p.rewardPercent) (hd : p'.periodDays = p.periodDays) :
    st'.Bounded p' := by
  unfold Stake.Bounded
  rw [ha, hb, hr, hd]
  exact h

/-- A stake that has earned nothing is within any cap that fits. -/
theorem Stake.bounded_of_balance_eq_amount {st : Stake} {p : Pool} (hb : st.balance = st.amount)
    (ha : 0 ≤ st.amount.value) (hr : 0 ≤ p.rewardPercent.value) : st.Bounded p :=
  ⟨fun _ hcap => hb ▸ amount_le_accrualCap ha hr hcap, fun _ _ => hb⟩

namespace MemoryTables

/-- The accrual invariant of the store: every pool pays at least one percent a day, every
principal is positive, and every balance lies between the principal and the cap of the
stake's pool. -/
structure AccrualSound (t : MemoryTables) : Prop where
  rate : ∀ {k p}, t.findPool k = some p → 1 ≤ p.rewardPercent.value
  principal : ∀ {k st}, t.findStake k = some st → 0 < st.amount.value
  floor : ∀ {k st}, t.findStake k = some st → st.amount ≤ st.balance
  capped : ∀ {k st p}, t.findStake k = some st → t.findPool st.poolId = some p → st.Bounded p

theorem accrualSound_empty : AccrualSound {} where
  rate h := by cases h
  principal h := by cases h
  floor h := by cases h
  capped h := by cases h

namespace AccrualSound

variable {t : MemoryTables} (h : t.AccrualSound)
include h

theorem rate_nonneg {k : Nat} {p : Pool} (hp : t.findPool k = some p) :
    0 ≤ p.rewardPercent.value :=
  zero_le_one.trans (h.rate hp)

theorem balance_nonneg {k : Nat} {st : Stake} (hs : t.findStake k = some st) :
    0 ≤ st.balance.value :=
  (h.principal hs).le.trans (le_iff_value_le.mp (h.floor hs))

/-- A day of accrual on a stake of the store, at its own pool's terms, raises the balance and
stays within the cap. -/
theorem nextBalance_bounds {st : Stake} {p : Pool} {next : Decimal}
    (hs : t.findStake st.id = some st) (hp : t.findPool st.poolId = some p)
    (hnext : nextBalance p st = .ok (some next)) :
    st.balance ≤ next ∧
      ∀ cap, accrualCap st.amount p.rewardPercent p.periodDays = .ok cap → next ≤ cap :=
  PoolTreasury.nextBalance_bounds (h.principal hs).le (h.rate_nonneg hp) (h.balance_nonneg hs)
    hnext

/-- A write that brings no new record keeps the invariant: every pool found afterwards was
found before and keeps its terms, and every stake found afterwards was found before with the
same pool, principal and balance. -/
theorem of_lookups {t' : MemoryTables}
    (hpool : ∀ {k p'}, t'.findPool k = some p' → ∃ p, t.findPool k = some p ∧ p.Keeps p')
    (hstake : ∀ {k st'}, t'.findStake k = some st' → ∃ st, t.findStake k = some st ∧
      st'.poolId = st.poolId ∧ st'.amount = st.amount ∧ st'.balance = st.balance) :
    t'.AccrualSound where
  rate hp' := by
    obtain ⟨p, hp, hk⟩ := hpool hp'
    rw [hk.rewardPercent]
    exact h.rate hp
  principal hs' := by
    obtain ⟨st, hs, -, ha, -⟩ := hstake hs'
    rw [ha]
    exact h.principal hs
  floor hs' := by
    obtain ⟨st, hs, -, ha, hb⟩ := hstake hs'
    rw [ha, hb]
    exact h.floor hs
  capped hs' hp' := by
    obtain ⟨st, hs, hpid, ha, hb⟩ := hstake hs'
    obtain ⟨p, hp, hk⟩ := hpool hp'
    rw [hpid] at hp
    exact (h.capped hs hp).congr ha hb hk.rewardPercent hk.periodDays

/-- Writes that change no pool and no stake. -/
theorem of_same {t' : MemoryTables} (hpools : ∀ k, t'.findPool k = t.findPool k)
    (hstakes : ∀ k, t'.findStake k = t.findStake k) : t'.AccrualSound :=
  h.of_lookups (fun hp' => ⟨_, (hpools _).symm.trans hp', .refl _⟩)
    (fun hs' => ⟨_, (hstakes _).symm.trans hs', rfl, rfl, rfl⟩)

/-- A pool written over one that exists, with the same terms. -/
theorem updatePool {q p : Pool} (hp : t.findPool q.id = some p) (hk : p.Keeps q) :
    (t.updatePool q).2.AccrualSound := by
  refine h.of_lookups ?_ (fun hs' => ⟨_, (t.findStake_updatePool q _).symm.trans hs', rfl, rfl, rfl⟩)
  intro k p' hp'
  rcases t.eq_or_findPool_of_write (findPool_updatePool t hp) hp' with ⟨hid, rfl⟩ | hp'
  · exact ⟨p, hid ▸ hp, hk⟩
  · exact ⟨p', hp', .refl p'⟩

theorem deletePool {k : Nat} {p : Pool} (hp : t.findPool k = some p) :
    (t.deletePool k).2.AccrualSound := by
  refine h.of_lookups ?_ (fun hs' => ⟨_, (t.findStake_deletePool k _).symm.trans hs', rfl, rfl, rfl⟩)
  intro k' p' hp'
  rw [findPool_deletePool t hp] at hp'
  split at hp'
  · cases hp'
  · exact ⟨p', hp', .refl p'⟩

/-- A stake written over one that exists, with the same pool, principal and balance. -/
theorem updateStake {q st : Stake} (hs : t.findStake q.id = some st) (hpid : q.poolId = st.poolId)
    (ha : q.amount = st.amount) (hb : q.balance = st.balance) :
    (t.updateStake q).2.AccrualSound := by
  refine h.of_lookups (fun hp' => ⟨_, (t.findPool_updateStake q _).symm.trans hp', .refl _⟩) ?_
  intro k st' hs'
  rcases t.eq_or_findStake_of_write (findStake_updateStake t hs) hs' with ⟨hid, rfl⟩ | hs'
  · exact ⟨st, hid ▸ hs, hpid, ha, hb⟩
  · exact ⟨st', hs', rfl, rfl, rfl⟩

/-- A paid claim writes its stake with the same pool, principal and balance, and its pool with
the same terms. -/
theorem settleClaim {q st : Stake} {r p : Pool} (hs : t.findStake q.id = some st)
    (hpid : q.poolId = st.poolId) (ha : q.amount = st.amount) (hb : q.balance = st.balance)
    (hp : t.findPool r.id = some p) (hk : p.Keeps r) : (t.settleClaim q r).2.AccrualSound := by
  refine h.of_lookups ?_ ?_
  · intro k p' hp'
    rcases t.eq_or_findPool_of_write (findPool_settleClaim t hs hp) hp' with ⟨hid, rfl⟩ | hp'
    · exact ⟨p, hid ▸ hp, hk⟩
    · exact ⟨p', hp', .refl p'⟩
  · intro k st' hs'
    rcases t.eq_or_findStake_of_write (findStake_settleClaim t hs hp) hs' with ⟨hid, rfl⟩ | hs'
    · exact ⟨st, hid ▸ hs, hpid, ha, hb⟩
    · exact ⟨st', hs', rfl, rfl, rfl⟩

/-- A new pool pays at least one percent a day; no stake belongs to it yet. -/
theorem savePool (hf : t.Fresh) (q : Pool) (hq : 1 ≤ q.rewardPercent.value) :
    (t.savePool q).2.AccrualSound where
  rate {k p} hp := by
    rw [findPool_savePool] at hp
    split at hp
    · cases hp
      exact hq
    · exact h.rate hp
  principal hs := by
    rw [findStake_savePool] at hs
    exact h.principal hs
  floor hs := by
    rw [findStake_savePool] at hs
    exact h.floor hs
  capped {k st p} hs hp := by
    rw [findStake_savePool] at hs
    rw [findPool_savePool, if_neg (by have := hf.stakePool hs; omega)] at hp
    exact h.capped hs hp

/-- A new stake of an existing pool, with a positive principal and nothing earned. -/
theorem saveStake (q : Stake) {p : Pool} (hp : t.findPool q.poolId = some p)
    (ha : 0 < q.amount.value) (hb : q.balance = q.amount) : (t.saveStake q).2.AccrualSound where
  rate hp' := by
    rw [findPool_saveStake] at hp'
    exact h.rate hp'
  principal {k st} hs := by
    rw [findStake_saveStake] at hs
    split at hs
    · cases hs
      exact ha
    · exact h.principal hs
  floor {k st} hs := by
    rw [findStake_saveStake] at hs
    split at hs
    · cases hs
      exact hb ▸ le_iff_value_le.mpr le_rfl
    · exact h.floor hs
  capped {k st p'} hs hp' := by
    rw [findPool_saveStake] at hp'
    rw [findStake_saveStake] at hs
    split at hs
    · cases hs
      rw [hp] at hp'
      cases hp'
      exact Stake.bounded_of_balance_eq_amount hb ha.le (h.rate_nonneg hp)
    · exact h.capped hs hp'

/-- A day of accrual on an active stake, at its own pool's terms. -/
theorem accrue {st : Stake} {p : Pool} {next : Decimal} (hs : t.findStake st.id = some st)
    (hp : t.findPool st.poolId = some p) (hnext : nextBalance p st = .ok (some next)) :
    (t.updateStake { st with balance := next }).2.AccrualSound :=
  have hs' : t.findStake ({ st with balance := next } : Stake).id = some st := hs
  { rate := fun hp' => by
      rw [findPool_updateStake] at hp'
      exact h.rate hp'
    principal := fun {k st'} hk => by
      rcases t.eq_or_findStake_of_write (findStake_updateStake t hs') hk with ⟨-, rfl⟩ | hk
      · exact (h.principal hs :)
      · exact h.principal hk
    floor := fun {k st'} hk => by
      rcases t.eq_or_findStake_of_write (findStake_updateStake t hs') hk with ⟨-, rfl⟩ | hk
      · exact Decimal.le_trans (h.floor hs :) (h.nextBalance_bounds hs hp hnext).1
      · exact h.floor hk
    capped := fun {k st' p'} hk hp' => by
      rw [findPool_updateStake] at hp'
      rcases t.eq_or_findStake_of_write (findStake_updateStake t hs') hk with ⟨-, rfl⟩ | hk
      · rw [hp] at hp'
        cases hp'
        -- the cap fits, since the day's accrual was computed under it
        obtain ⟨cap, hcap⟩ := accrualCap_of_nextBalance hnext
        refine ⟨(h.nextBalance_bounds hs hp hnext).2, fun o hover => ?_⟩
        rw [hcap] at hover
        cases hover
      · exact h.capped hk hp' }

end AccrualSound

/-- An operation record changes no pool and no stake. -/
theorem Logged.accrualSound {t t' : MemoryTables} (hl : t.Logged t') (h : t.AccrualSound) :
    t'.AccrualSound :=
  h.of_same (t.findPool_of_logged hl) (t.findStake_of_logged hl)

/-- A listed stake is found under its id as it was listed. -/
theorem findStake_of_mem_activeStakes {t : MemoryTables} {x : Stake} (hx : x ∈ t.activeStakes) :
    t.findStake x.id = some x := by
  obtain ⟨_, _, hfound⟩ := List.mem_filterMap.mp hx
  exact t.findStake_self hfound

/-- The stake `x` the pass listed still exists in `t`, in the pool it was listed with. -/
def Listed (t : MemoryTables) (x : Stake) : Prop :=
  ∃ st, t.findStake x.id = some st ∧ st.poolId = x.poolId

theorem Later.listed {t t' : MemoryTables} (hl : t.Later t') {x : Stake} (hx : t.Listed x) :
    t'.Listed x := by
  obtain ⟨st, hs, hpid⟩ := hx
  obtain ⟨st', hs', hk⟩ := hl.stake hs
  exact ⟨st', hs', hk.poolId.trans hpid⟩

end MemoryTables

open MemoryTables

/-- Each write of the pass for a listed stake keeps the invariant: the day of accrual is
computed at the terms of the stake's own pool. -/
theorem TickWrite.accrualSound {now : Instant} {x : Stake} {t t' : MemoryTables}
    (hw : TickWrite now x t t') (h : t.AccrualSound) (hx : t.Listed x) : t'.AccrualSound := by
  cases hw with
  | accrue _ hs _ hp hnext =>
    obtain ⟨st, hs₀, hpid⟩ := hx
    rw [hs] at hs₀
    cases hs₀
    exact h.accrue (t.findStake_self hs) (hpid ▸ hp) hnext
  | close _ hs _ _ => exact h.updateStake (t.findStake_self hs :) rfl rfl rfl
  | refresh hp _ => exact h.updatePool (t.findPool_self hp :) ⟨rfl, rfl, rfl, rfl, rfl⟩
  | note hl => exact hl.accrualSound h

/-- Each write of the pass for a listed stake leaves every balance where it was or higher. -/
theorem TickWrite.balance_le {now : Instant} {x : Stake} {t t' : MemoryTables}
    (hw : TickWrite now x t t') (h : t.AccrualSound) (hx : t.Listed x) {k : Nat} {st : Stake}
    (hs : t.findStake k = some st) : ∃ st', t'.findStake k = some st' ∧ st.balance ≤ st'.balance := by
  have hsame : ∃ st', t.findStake k = some st' ∧ st.balance ≤ st'.balance :=
    ⟨st, hs, le_iff_value_le.mpr le_rfl⟩
  cases hw with
  | @accrue st₀ p next _ hs₀ _ hp hnext =>
    have hs₁ : t.findStake ({ st₀ with balance := next } : Stake).id = some st₀ :=
      t.findStake_self hs₀
    rw [findStake_updateStake t hs₁]
    split
    · -- the stake that earns: its balance goes up
      rename_i hid
      rw [← hid, hs₁] at hs
      cases hs
      obtain ⟨st₁, hs₁, hpid⟩ := hx
      rw [hs₀] at hs₁
      cases hs₁
      exact ⟨_, rfl, (h.nextBalance_bounds (t.findStake_self hs₀) (hpid ▸ hp) hnext).1⟩
    · exact hsame
  | @close st₀ _ price _ hs₀ _ _ =>
    have hs₁ : t.findStake (st₀.closedAt now price).id = some st₀ := t.findStake_self hs₀
    rw [findStake_updateStake t hs₁]
    split
    · rename_i hid
      rw [← hid, hs₁] at hs
      cases hs
      exact ⟨_, rfl, le_iff_value_le.mpr le_rfl⟩
    · exact hsame
  | refresh hp _ =>
    rw [findStake_updatePool]
    exact hsame
  | note hl =>
    rw [t.findStake_of_logged hl]
    exact hsame

/-- The pass keeps the invariant and lowers no balance: every write is for a listed stake,
and every listed stake stays in its pool. -/
theorem TickRun.accrualSound {now : Instant} {t t' : MemoryTables}
    (hr : TickRun now t.activeStakes t t') (h : t.AccrualSound) :
    t'.AccrualSound ∧ ∀ {k st}, t.findStake k = some st →
      ∃ st', t'.findStake k = some st' ∧ st.balance ≤ st'.balance := by
  -- carried along the pass: the invariant, every listed stake in its pool, and the balances
  -- of the stakes of `t` at least where they were
  let P : MemoryTables → Prop := fun t₁ => t₁.AccrualSound ∧ (∀ x ∈ t.activeStakes, t₁.Listed x) ∧
    ∀ {k st}, t.findStake k = some st → ∃ st', t₁.findStake k = some st' ∧ st.balance ≤ st'.balance
  have hstart : P t := by
    refine ⟨h, fun x hx => ⟨x, findStake_of_mem_activeStakes hx, rfl⟩, fun hs => ?_⟩
    exact ⟨_, hs, le_iff_value_le.mpr le_rfl⟩
  have hend : P t' := by
    refine hr.invariant ?_ hstart
    intro x t₁ t₂ hx hw ⟨hsound, hlisted, hgrown⟩
    refine ⟨hw.accrualSound hsound (hlisted x hx), fun y hy => hw.later.listed (hlisted y hy), ?_⟩
    intro k st hs
    obtain ⟨st₁, hs₁, hle₁⟩ := hgrown hs
    obtain ⟨st₂, hs₂, hle₂⟩ := hw.balance_le hsound (hlisted x hx) hs₁
    exact ⟨st₂, hs₂, Decimal.le_trans hle₁ hle₂⟩
  exact ⟨hend.1, hend.2.2⟩

/-- Every step keeps the accrual invariant. -/
theorem OpStep.accrualSound {op : LedgerOp} {s s' : RunState} {r : Outcome}
    (hs : OpStep op s r s') (hf : s.tables.Fresh) (h : s.tables.AccrualSound) :
    s'.tables.AccrualSound := by
  cases hs with
  | quiet ht _ => exact ht ▸ h
  | registerUser ht _ =>
    exact ht ▸ h.of_same (s.tables.findPool_saveUser _ _) (s.tables.findStake_saveUser _ _)
  | createPool hvalid _ hl _ =>
    exact hl.accrualSound (h.savePool hf _ (validateNewPool_rewardPercent hvalid))
  | addReserve _ hp _ _ hl _ =>
    exact hl.accrualSound (h.updatePool (s.tables.findPool_self hp :) ⟨rfl, rfl, rfl, rfl, rfl⟩)
  | payCommission hp _ _ hl _ =>
    exact hl.accrualSound (h.updatePool (s.tables.findPool_self hp :) ⟨rfl, rfl, rfl, rfl, rfl⟩)
  | setActive hp _ hl _ =>
    exact hl.accrualSound (h.updatePool (s.tables.findPool_self hp :) ⟨rfl, rfl, rfl, rfl, rfl⟩)
  | deletePool hp _ _ _ hl _ => exact hl.accrualSound (h.deletePool hp)
  | createStake hamount _ _ hp _ _ _ hl _ =>
    -- the principal was checked to be positive, and nothing is earned yet
    have hpos := lt_iff_value_lt.mp (not_le_iff_lt.mp hamount)
    rw [value_zero] at hpos
    exact hl.accrualSound (h.saveStake _ hp hpos rfl)
  | tick hr _ => exact (hr.accrualSound h).1
  | claimSent _ ht _ => exact ht ▸ h
  | claimSettled hc _ _ hl _ =>
    exact hl.accrualSound (h.settleClaim hc.findStake_paid (Stake.paid_poolId _ _)
      (Stake.paid_amount _ _) (Stake.paid_balance _ _) (s.tables.findPool_self hc.pool :)
      ⟨rfl, rfl, rfl, rfl, rfl⟩)
  | withdraw hc hl _ =>
    exact hl.accrualSound (h.updatePool (s.tables.findPool_self hc.pool :) ⟨rfl, rfl, rfl, rfl, rfl⟩)

/-- A tick lowers no balance: the pass is the only thing it can do to the tables. -/
theorem OpStep.tick_balance_le {callMs : Nat} {now : Instant} {s s' : RunState} {r : Outcome}
    (hs : OpStep (.tick callMs now) s r s') (h : s.tables.AccrualSound) {k : Nat} {st : Stake}
    (hk : s.tables.findStake k = some st) :
    ∃ st', s'.tables.findStake k = some st' ∧ st.balance ≤ st'.balance := by
  cases hs with
  | quiet ht _ => exact ⟨st, ht ▸ hk, le_iff_value_le.mpr le_rfl⟩
  | tick hr _ => exact (hr.accrualSound h).2 hk

theorem RunState.Reachable.accrualSound {s : RunState} (h : s.Reachable) :
    s.tables.AccrualSound := by
  have hboth := RunState.Reachable.invariant
    (I := fun s => s.tables.Fresh ∧ s.tables.AccrualSound)
    (fun _ _ => ⟨fresh_empty, accrualSound_empty⟩)
    (fun _ _ _ _ h hs => ⟨hs.fresh h.1, hs.accrualSound h.1 h.2⟩) h
  exact hboth.2

/-- In every reachable state, every stake's balance is at least its principal, and at most the
cap of its pool, or the principal itself when that cap does not fit a decimal; and an accrual
pass, whatever the clock and the oracle answer, lowers no stake's balance. -/
theorem balance_between_principal_and_cap {s : RunState} (h : s.Reachable) :
    (∀ {k st}, s.tables.findStake k = some st → st.amount ≤ st.balance ∧
      ∀ p, s.tables.findPool st.poolId = some p →
        (∀ cap, accrualCap st.amount p.rewardPercent p.periodDays = .ok cap → st.balance ≤ cap) ∧
        ∀ o, accrualCap st.amount p.rewardPercent p.periodDays = .error o →
          st.balance = st.amount) ∧
    ∀ (callMs : Nat) (now : Instant) {k st}, s.tables.findStake k = some st →
      ∃ st', ((LedgerOp.tick callMs now).exec s).2.tables.findStake k = some st' ∧
        st.balance ≤ st'.balance := by
  have hsound := h.accrualSound
  refine ⟨fun hs => ⟨hsound.floor hs, fun p hp => hsound.capped hs hp⟩, ?_⟩
  intro callMs now k st hs
  exact ((LedgerOp.tick callMs now).exec_step s).tick_balance_le hsound hs

/-- The bounds hold at the empty store, which a run of no operation reaches. -/
theorem balance_between_principal_and_cap_at_start :
    let s := RunState.start ⟨fun _ _ => none, fun _ _ => none, fun _ _ => none⟩ ⟨0, 0⟩
    (∀ {k st}, s.tables.findStake k = some st → st.amount ≤ st.balance ∧
      ∀ p, s.tables.findPool st.poolId = some p →
        (∀ cap, accrualCap st.amount p.rewardPercent p.periodDays = .ok cap → st.balance ≤ cap) ∧
        ∀ o, accrualCap st.amount p.rewardPercent p.periodDays = .error o →
          st.balance = st.amount) ∧
    ∀ (callMs : Nat) (now : Instant) {k st}, s.tables.findStake k = some st →
      ∃ st', ((LedgerOp.tick callMs now).exec s).2.tables.findStake k = some st' ∧
        st.balance ≤ st'.balance :=
  balance_between_principal_and_cap ⟨_, _, [], rfl⟩

end PoolTreasury
