import PoolTreasury.Proofs.Accrual.Pass
import PoolTreasury.Proofs.Accrual.Bounds

/-! # The stages of a stake

A stake is opened *active* and earns while its term runs. Once it has matured, the accrual
pass closes it at its close date and at the price the oracle gave its token during that pass;
it then *awaits settlement*. A claim pays it, and it is *settled*, with exactly one claim paid.

Every step moves a stake at most one stage on and never back. A day of reward is the only
change to an active stake besides its closing, and once a stake has left the active stage
nothing about it changes again but the flag of the one claim that pays it.
-/

namespace PoolTreasury

namespace Stake

/-- The stages of a stake's life, in the order it goes through them. -/
inductive Stage where
  | active
  | awaiting
  | settled
deriving DecidableEq, Repr

/-- The position of a stage in that order. -/
def Stage.rank : Stage → Nat
  | .active => 0
  | .awaiting => 1
  | .settled => 2

/-- The stage a stake's flags put it in. -/
def stage (st : Stake) : Stage :=
  if st.isSettled then .settled else if st.isActive then .active else .awaiting

/-- What a stage requires: an active stake has no claim paid; a stake awaiting settlement is
closed, with its close date and closing price, and has no claim paid; a settled stake is
closed likewise and has exactly one claim paid. -/
def InStage (st : Stake) : Stage → Prop
  | .active => st.isActive = true ∧ st.isRewardPaid = false ∧ st.isInsurancePaid = false
  | .awaiting => st.isActive = false ∧ st.isRewardPaid = false ∧ st.isInsurancePaid = false ∧
      st.closeDate.isSome = true ∧ st.closePrice.isSome = true
  | .settled => st.isActive = false ∧ (st.isRewardPaid != st.isInsurancePaid) = true ∧
      st.closeDate.isSome = true ∧ st.closePrice.isSome = true

/-- The stake has all that the stage its flags put it in requires. -/
def Staged (st : Stake) : Prop := st.InStage st.stage

/-- A stake in a stage is in the stage its flags put it in. -/
theorem stage_of_inStage {st : Stake} {g : Stage} (h : st.InStage g) : st.stage = g := by
  cases g with
  | active => simp [stage, isSettled, h.1, h.2.1, h.2.2]
  | awaiting => simp [stage, isSettled, h.1, h.2.1, h.2.2.1]
  | settled =>
    -- exactly one claim paid means some claim is paid
    obtain ⟨_, hone, _⟩ := h
    have hsettled : st.isSettled = true := by
      revert hone
      simp only [isSettled]
      cases st.isRewardPaid <;> cases st.isInsurancePaid <;> decide
    simp [stage, hsettled]

theorem staged_of_inStage {st : Stake} {g : Stage} (h : st.InStage g) : st.Staged := by
  unfold Staged
  rw [stage_of_inStage h]
  exact h

/-- An active stake in its stage has no claim paid. -/
theorem Staged.unpaid_of_active {st : Stake} (h : st.Staged) (ha : st.isActive = true) :
    st.isRewardPaid = false ∧ st.isInsurancePaid = false := by
  unfold Staged at h
  generalize st.stage = g at h
  cases g with
  | active => exact h.2
  | awaiting | settled => simp [h.1] at ha

/-- A stake in its stage that is not active has its close date and closing price. -/
theorem Staged.closed_of_inactive {st : Stake} (h : st.Staged) (ha : st.isActive = false) :
    st.closeDate.isSome = true ∧ st.closePrice.isSome = true := by
  unfold Staged at h
  generalize st.stage = g at h
  cases g with
  | active => simp [h.1] at ha
  | awaiting => exact h.2.2.2
  | settled => exact h.2.2

/-- A stake as `createStake` opens it is active with no claim paid. -/
theorem inStage_opening (userId poolId : Nat) (amount price : Decimal) (periodDays : Nat)
    (start : Instant) (id : Nat) :
    ({ Stake.opening userId poolId amount price periodDays start with id } : Stake).InStage
      .active :=
  ⟨rfl, rfl, rfl⟩

end Stake

open Stake

/-! ## What one operation does to a stake -/

/-- What operation `op`, run from `s` to `s'`, may do to stake `k`, found as `st` before and as
`st'` after: nothing; let it earn while it is active; close it in a tick at `now`, active and
matured, at a price of its pool's token that the oracle answered during that tick; or, by a
claim on it while it awaits settlement, pay that claim. -/
inductive StakeMove (op : LedgerOp) (s s' : RunState) (k : Nat) : Stake → Stake → Prop
  | keep {st : Stake} : StakeMove op s s' k st st
  | accrue {st : Stake} {callMs : Nat} {now : Instant} {balance : Decimal} :
      op = .tick callMs now → st.isActive = true → StakeMove op s s' k st { st with balance }
  | close {st : Stake} {callMs : Nat} {now : Instant} {balance price : Decimal} {p : Pool} :
      op = .tick callMs now → st.isActive = true → st.endDate ≤ now →
      s.tables.findPool st.poolId = some p →
      s.outside.Priced s.lookups s'.lookups p.tokenMaster price →
      StakeMove op s s' k st ({ st with balance }.closedAt now price)
  | settle {st : Stake} {limits : CallLimits} {kind : ClaimKind} :
      op = .claim limits k kind → st.isActive = false → st.isSettled = false →
      StakeMove op s s' k st (st.paid kind)

namespace StakeMove

variable {op : LedgerOp} {s s' : RunState} {k : Nat} {st st' : Stake}

/-- A move keeps a stake in its stage or takes it to the next one. -/
theorem staged (hm : StakeMove op s s' k st st') (h : st.Staged) :
    st'.Staged ∧ st.stage.rank ≤ st'.stage.rank := by
  cases hm with
  | keep => exact ⟨h, le_rfl⟩
  | @accrue _ _ b _ hactive =>
    -- an earning stake stays active with no claim paid
    obtain ⟨hr, hi⟩ := h.unpaid_of_active hactive
    have hin : InStage { st with balance := b } .active := ⟨hactive, hr, hi⟩
    refine ⟨staged_of_inStage hin, ?_⟩
    rw [stage_of_inStage hin, stage_of_inStage (show st.InStage .active from ⟨hactive, hr, hi⟩)]
  | @close _ now b price _ _ hactive _ _ _ =>
    obtain ⟨hr, hi⟩ := h.unpaid_of_active hactive
    have hin : InStage ({ st with balance := b }.closedAt now price) .awaiting :=
      ⟨rfl, hr, hi, rfl, rfl⟩
    refine ⟨staged_of_inStage hin, ?_⟩
    rw [stage_of_inStage hin, stage_of_inStage (show st.InStage .active from ⟨hactive, hr, hi⟩)]
    decide
  | @settle _ kind _ hclosed hunsettled =>
    -- a claim pays a stake that awaits settlement, which has its close date and price
    have hunpaid : st.isRewardPaid = false ∧ st.isInsurancePaid = false := by
      simpa [isSettled] using hunsettled
    obtain ⟨hr, hi⟩ := hunpaid
    obtain ⟨hdate, hprice⟩ := h.closed_of_inactive hclosed
    have hbefore : st.InStage .awaiting := ⟨hclosed, hr, hi, hdate, hprice⟩
    have hin : (st.paid kind).InStage .settled := by
      cases kind <;> exact ⟨hclosed, by simp [paid, hr, hi], hdate, hprice⟩
    refine ⟨staged_of_inStage hin, ?_⟩
    rw [stage_of_inStage hin, stage_of_inStage hbefore]
    decide

/-- No move changes the pool a stake belongs to. -/
theorem poolId_eq (hm : StakeMove op s s' k st st') : st'.poolId = st.poolId := by
  cases hm with
  | keep | accrue _ _ | close _ _ _ _ _ => rfl
  | settle _ _ _ => exact Stake.paid_poolId _ _

/-- No move takes a paid claim back. -/
theorem unsettled_of (hm : StakeMove op s s' k st st') (h : st'.isSettled = false) :
    st.isSettled = false := by
  cases hm with
  | keep | accrue _ _ | close _ _ _ _ _ => exact h
  | @settle _ kind _ _ _ => cases kind <;> simp [Stake.paid, isSettled] at h

/-- Once a stake has left the active stage, a step leaves it as it was or pays the claim made on
it: its amount, balance, dates and prices stay as they are. -/
theorem of_inactive (hm : StakeMove op s s' k st st') (h : st.isActive = false) :
    st' = st ∨ ∃ limits kind, op = .claim limits k kind ∧ st.isSettled = false ∧
      st' = st.paid kind := by
  cases hm with
  | keep => exact .inl rfl
  | accrue _ hactive | close _ hactive _ _ _ => simp [hactive] at h
  | @settle limits kind hop _ hunsettled => exact .inr ⟨limits, kind, hop, hunsettled, rfl⟩

end StakeMove

/-! ## What the accrual pass does to a stake -/

/-- What the pass at `now`, started on tables `t₀`, may have done so far to a stake found there
as `st₀` and now as `st`: let it earn, all else unchanged; or closed it, active and matured, at
close date `now` and at a price `priced` gives for its pool's token. -/
def PassMoved (now : Instant) (priced : String → Decimal → Prop) (t₀ : MemoryTables)
    (st₀ st : Stake) : Prop :=
  (∃ b, st = { st₀ with balance := b } ∧ (b ≠ st₀.balance → st₀.isActive = true)) ∨
    (st₀.isActive = true ∧ st₀.endDate ≤ now ∧
      ∃ p price b, t₀.findPool st₀.poolId = some p ∧
      priced p.tokenMaster price ∧ st = { st₀ with balance := b }.closedAt now price)

/-- What the pass has done so far, from tables `t₀` to `t`: every stake of `t₀` moved as
`PassMoved` allows, no stake was added, and every pool keeps its token. -/
structure PassTrack (now : Instant) (priced : String → Decimal → Prop) (t₀ t : MemoryTables) :
    Prop where
  stake : ∀ {k st₀}, t₀.findStake k = some st₀ →
    ∃ st, t.findStake k = some st ∧ PassMoved now priced t₀ st₀ st
  added : ∀ {k st}, t.findStake k = some st → ∃ st₀, t₀.findStake k = some st₀
  pool : ∀ {k p}, t.findPool k = some p →
    ∃ p₀, t₀.findPool k = some p₀ ∧ p.tokenMaster = p₀.tokenMaster

namespace PassTrack

variable {now : Instant} {priced : String → Decimal → Prop} {t₀ t : MemoryTables}

theorem start (t₀ : MemoryTables) : PassTrack now priced t₀ t₀ where
  stake {_ st₀} h := ⟨st₀, h, .inl ⟨st₀.balance, rfl, fun hne => absurd rfl hne⟩⟩
  added h := ⟨_, h⟩
  pool h := ⟨_, h, rfl⟩

variable (h : PassTrack now priced t₀ t)
include h

theorem logged {t' : MemoryTables} (hl : t.Logged t') : PassTrack now priced t₀ t' where
  stake hs := by
    rw [t.findStake_of_logged hl]
    exact h.stake hs
  added hs := h.added (by rwa [t.findStake_of_logged hl] at hs)
  pool hp := h.pool (by rwa [t.findPool_of_logged hl] at hp)

/-- The pool's free reserve is the only pool write of the pass. -/
theorem refresh {k : Nat} {p : Pool} (hp : t.findPool k = some p) (free : Decimal) :
    PassTrack now priced t₀ (t.updatePool { p with tempReserve := free }).2 where
  stake hs := by
    obtain ⟨st, hst, hmoved⟩ := h.stake hs
    exact ⟨st, by rw [MemoryTables.findStake_updatePool]; exact hst, hmoved⟩
  added hs := h.added (by rwa [MemoryTables.findStake_updatePool] at hs)
  pool {k' p'} hp' := by
    have hq : t.findPool ({ p with tempReserve := free } : Pool).id = some p := t.findPool_self hp
    rcases t.eq_or_findPool_of_write (MemoryTables.findPool_updatePool t hq) hp' with
      ⟨hid, rfl⟩ | hp'
    · obtain ⟨p₀, hp₀, htoken⟩ := h.pool (hid ▸ hq)
      exact ⟨p₀, hp₀, htoken⟩
    · exact h.pool hp'

/-- A stake written over one the pass already moved, so that the new record is moved too. -/
theorem updateStake {q st : Stake} (hs : t.findStake q.id = some st)
    (hmove : ∀ {st₀}, t₀.findStake q.id = some st₀ → PassMoved now priced t₀ st₀ st →
      PassMoved now priced t₀ st₀ q) :
    PassTrack now priced t₀ (t.updateStake q).2 where
  stake {k st₀} hs₀ := by
    obtain ⟨st', hst', hmoved⟩ := h.stake hs₀
    rw [MemoryTables.findStake_updateStake t hs]
    split
    · rename_i hid
      rw [← hid, hs] at hst'
      cases hst'
      exact ⟨q, rfl, hmove (hid ▸ hs₀) hmoved⟩
    · exact ⟨st', hst', hmoved⟩
  added {k st'} hs' := by
    rcases t.eq_or_findStake_of_write (MemoryTables.findStake_updateStake t hs) hs' with
      ⟨hid, -⟩ | hs'
    · exact h.added (hid ▸ hs)
    · exact h.added hs'
  pool hp := h.pool (by rwa [MemoryTables.findPool_updateStake] at hp)

/-- A day of reward on an active stake. -/
theorem accrue {k : Nat} {st : Stake} (hs : t.findStake k = some st) (hactive : st.isActive = true)
    (next : Decimal) : PassTrack now priced t₀ (t.updateStake { st with balance := next }).2 := by
  have hself := t.findStake_self hs
  refine h.updateStake hself ?_
  intro st₀ _ hmoved
  rcases hmoved with ⟨b, rfl, _⟩ | ⟨_, _, _, _, _, _, _, rfl⟩
  · exact .inl ⟨next, rfl, fun _ => hactive⟩
  · cases hactive

/-- The closing of a listed stake, active and matured, at a price the pass looked up for its
pool's token. -/
theorem close {x st : Stake} {p : Pool} {price : Decimal} (hx : t₀.findStake x.id = some x)
    (hmatured : x.hasMatured now = true) (hp : t.findPool x.poolId = some p)
    (hpriced : priced p.tokenMaster price) (hs : t.findStake x.id = some st)
    (hactive : st.isActive = true) :
    PassTrack now priced t₀ (t.updateStake (st.closedAt now price)).2 := by
  have hself := t.findStake_self hs
  refine h.updateStake hself ?_
  intro st₀ hs₀ hmoved
  -- the stake found at the start of the pass is the listed one
  rw [Stake.closedAt_id, t.findStake_id hs, hx] at hs₀
  cases hs₀
  obtain ⟨p₀, hp₀, htoken⟩ := h.pool hp
  rcases hmoved with ⟨b, rfl, _⟩ | ⟨_, _, _, _, _, _, _, rfl⟩
  · refine .inr ⟨hactive, by simpa [Stake.hasMatured] using hmatured, p₀, price, b, hp₀,
      htoken ▸ hpriced, rfl⟩
  · cases hactive

end PassTrack

section Pass

variable {now : Instant} {priced : String → Decimal → Prop} {t₀ : MemoryTables}

theorem TickTurn.track {x : Stake} {t t' : MemoryTables} (ht : TickTurn now priced x t t')
    (hx : t₀.findStake x.id = some x) (h : PassTrack now priced t₀ t) :
    PassTrack now priced t₀ t' := by
  cases ht with
  | skip => exact h
  | accrue _ hs hactive _ _ => exact h.accrue hs hactive _
  | close hmatured hp hpriced hs hactive _ hl =>
    have hclosed := h.close hx hmatured hp hpriced hs hactive
    exact (hclosed.refresh (by rwa [MemoryTables.findPool_updateStake]) _).logged hl

theorem TickCut.track {x : Stake} {t t' : MemoryTables} (ht : TickCut now priced x t t')
    (hx : t₀.findStake x.id = some x) (h : PassTrack now priced t₀ t) :
    PassTrack now priced t₀ t' := by
  cases ht with
  | early => exact h
  | closed hmatured hp hpriced hs hactive => exact h.close hx hmatured hp hpriced hs hactive
  | refreshed hmatured hp hpriced hs hactive _ =>
    have hclosed := h.close hx hmatured hp hpriced hs hactive
    exact hclosed.refresh (by rwa [MemoryTables.findPool_updateStake]) _

theorem TickPass.track {xs : List Stake} {t t' : MemoryTables} (hp : TickPass now priced xs t t')
    (hlisted : ∀ x ∈ xs, t₀.findStake x.id = some x) (h : PassTrack now priced t₀ t) :
    PassTrack now priced t₀ t' := by
  induction hp with
  | nil => exact h
  | cons hturn _ ih =>
    exact ih (fun x hx => hlisted x (List.mem_cons_of_mem _ hx))
      (hturn.track (hlisted _ List.mem_cons_self) h)

theorem TickPassCut.track {xs : List Stake} {t t' : MemoryTables}
    (hp : TickPassCut now priced xs t t') (hlisted : ∀ x ∈ xs, t₀.findStake x.id = some x)
    (h : PassTrack now priced t₀ t) : PassTrack now priced t₀ t' := by
  induction hp with
  | here hcut => exact hcut.track (hlisted _ List.mem_cons_self) h
  | later hturn _ ih =>
    exact ih (fun x hx => hlisted x (List.mem_cons_of_mem _ hx))
      (hturn.track (hlisted _ List.mem_cons_self) h)

end Pass

/-- Whatever a tick answers, its pass moved every stake as `PassMoved` allows, added none and
kept every pool's token. -/
theorem TickEnds.track {now : Instant} {s s' : RunState} {r : Outcome} (h : TickEnds now s r s') :
    PassTrack now (s.outside.Priced s.lookups s'.lookups) s.tables s'.tables := by
  have hlisted : ∀ x ∈ s.tables.activeStakes, s.tables.findStake x.id = some x :=
    fun _ hx => MemoryTables.findStake_of_mem_activeStakes hx
  obtain ⟨_, hpass⟩ := h
  rcases r with o | e | ⟨⟩
  · exact hpass.track hlisted (.start _)
  · exact hpass.elim
  · exact hpass.track hlisted (.start _)

/-- What the pass of a tick did to a stake is one move of that tick. -/
theorem PassMoved.stakeMove {callMs : Nat} {now : Instant} {s s' : RunState} {k : Nat}
    {st st' : Stake} (hm : PassMoved now (s.outside.Priced s.lookups s'.lookups) s.tables st st') :
    StakeMove (.tick callMs now) s s' k st st' := by
  rcases hm with ⟨b, rfl, hb⟩ | ⟨hactive, hend, p, price, b, hp, hpriced, rfl⟩
  · by_cases hsame : b = st.balance
    · subst hsame
      exact .keep
    · exact .accrue rfl (hb hsame)
  · exact .close rfl hactive hend hp hpriced

/-! ## What each operation does to a stake -/

section Step

open MemoryTables

variable {op : LedgerOp} {s s' : RunState} {r : Outcome}

/-- After a settled claim on stake `sid`, that stake is the one the claim found with the claim's
flag set, and every other stake is as it was. -/
theorem ClaimChecks.findStake_settled {t t' : MemoryTables} {sid : Nat} {kind : ClaimKind}
    {st : Stake} {p q : Pool} {payout debit : Decimal} {u : User}
    (hc : ClaimChecks t sid kind st p payout debit u)
    (hl : (t.settleClaim (st.paid kind) q).2.Logged t') (hq : q.id = p.id) (k : Nat) :
    t'.findStake k = if sid = k then some (st.paid kind) else t.findStake k := by
  have hp : t.findPool q.id = some p := hq ▸ t.findPool_self hc.pool
  rw [findStake_of_logged _ hl, findStake_settleClaim _ hc.findStake_paid hp, Stake.paid_id,
    t.findStake_id hc.stake]

/-- How a step writes stake `k`: not at all, through the accrual pass of a tick, as the stake
`createStake` opens in an active pool, or as the stake a settled claim pays. -/
inductive StakeWrite (op : LedgerOp) (s s' : RunState) (k : Nat) : Prop
  | untouched : s'.tables.findStake k = s.tables.findStake k → StakeWrite op s s' k
  | tick {callMs : Nat} {now : Instant} : op = .tick callMs now → StakeWrite op s s' k
  | opened {userId pid : Nat} {amount price : Decimal} {p : Pool} :
      op = .createStake userId pid amount price → s.tables.findPool pid = some p →
      p.isActive = true →
      s'.tables.findStake k = (if s.tables.lastId + 1 = k then
        some { Stake.opening userId pid amount price p.periodDays s.clock with
          id := s.tables.lastId + 1 } else s.tables.findStake k) →
      StakeWrite op s s' k
  | settled {limits : CallLimits} {sid : Nat} {kind : ClaimKind} {st : Stake} {p : Pool}
      {payout debit : Decimal} {u : User} :
      op = .claim limits sid kind → ClaimChecks s.tables sid kind st p payout debit u →
      s'.tables.findStake k = (if sid = k then some (st.paid kind) else s.tables.findStake k) →
      StakeWrite op s s' k

/-- Every step writes each stake as `StakeWrite` says. -/
theorem OpStep.stakeWrite (hs : OpStep op s r s') (k : Nat) : StakeWrite op s s' k := by
  cases hs with
  | quiet ht _ | claimSent _ ht _ => exact .untouched (by rw [ht])
  | registerUser ht _ => exact .untouched (by rw [ht, findStake_saveUser])
  | createPool _ _ hl _ => exact .untouched (by rw [findStake_of_logged _ hl, findStake_savePool])
  | addReserve _ _ _ _ hl _ | payCommission _ _ _ hl _ | setActive _ _ hl _ | withdraw _ hl _ =>
    exact .untouched (by rw [findStake_of_logged _ hl, findStake_updatePool])
  | deletePool _ _ _ _ hl _ =>
    exact .untouched (by rw [findStake_of_logged _ hl, findStake_deletePool])
  | createStake _ _ _ hp hactive _ _ hl _ =>
    exact .opened rfl hp hactive (by rw [findStake_of_logged _ hl, findStake_saveStake])
  | tick _ _ => exact .tick rfl
  | claimSettled hc _ _ hl _ => exact .settled rfl hc (hc.findStake_settled hl rfl k)

/-- Every step moves each stake it finds as `StakeMove` allows; what the pass of a tick did is
known from what the tick ended in. -/
theorem OpStep.stakeMove (hs : OpStep op s r s')
    (hticks : ∀ callMs now, op = .tick callMs now → TickEnds now s r s') (hf : s.tables.Fresh)
    {k : Nat} {st : Stake} (hk : s.tables.findStake k = some st) :
    ∃ st', s'.tables.findStake k = some st' ∧ StakeMove op s s' k st st' := by
  cases hs.stakeWrite k with
  | untouched hsame => exact ⟨st, hsame.trans hk, .keep⟩
  | tick hop =>
    obtain ⟨st', hst', hmoved⟩ := (hticks _ _ hop).track.stake hk
    subst hop
    exact ⟨st', hst', hmoved.stakeMove⟩
  | opened _ _ _ hw =>
    -- the new stake takes an id no stake has
    have hnew : s.tables.lastId + 1 ≠ k := by have := hf.stake hk; omega
    rw [hw, if_neg hnew]
    exact ⟨st, hk, .keep⟩
  | settled hop hc hw =>
    rw [hw]
    split
    · -- the claimed stake is stake `k`, which awaited settlement
      rename_i hsid
      subst hsid
      rw [hc.stake] at hk
      cases hk
      exact ⟨_, rfl, .settle hop hc.closed hc.unsettled⟩
    · exact ⟨st, hk, .keep⟩

/-- A stake a step adds is active with no claim paid, and belongs to a pool that was there and
active. -/
theorem OpStep.added (hs : OpStep op s r s')
    (hticks : ∀ callMs now, op = .tick callMs now → TickEnds now s r s') {k : Nat} {st' : Stake}
    (h' : s'.tables.findStake k = some st') (hnone : s.tables.findStake k = none) :
    st'.InStage .active ∧ ∃ p, s.tables.findPool st'.poolId = some p ∧ p.isActive = true := by
  cases hs.stakeWrite k with
  | untouched hsame =>
    rw [hsame, hnone] at h'
    cases h'
  | tick hop =>
    obtain ⟨_, h₀⟩ := (hticks _ _ hop).track.added h'
    rw [hnone] at h₀
    cases h₀
  | opened _ hp hactive hw =>
    rw [hw] at h'
    split at h'
    · cases h'
      exact ⟨inStage_opening .., _, hp, hactive⟩
    · rw [hnone] at h'
      cases h'
  | settled _ hc hw =>
    -- the claimed stake was there before
    rw [hw] at h'
    split at h'
    · rename_i hsid
      rw [← hsid, hc.stake] at hnone
      cases hnone
    · rw [hnone] at h'
      cases h'

end Step

/-! ## Every stake is in its stage -/

/-- Every stake of the tables is in the stage its flags put it in. -/
def MemoryTables.AllStaged (t : MemoryTables) : Prop :=
  ∀ k st, t.findStake k = some st → st.Staged

/-- Every step keeps every stake in its stage: a stake it adds is active, and one it moves
goes to a stage it is in. -/
theorem OpStep.allStaged {op : LedgerOp} {s s' : RunState} {r : Outcome} (hs : OpStep op s r s')
    (hticks : ∀ callMs now, op = .tick callMs now → TickEnds now s r s') (hf : s.tables.Fresh)
    (h : s.tables.AllStaged) : s'.tables.AllStaged := by
  intro k st' h'
  cases hk : s.tables.findStake k with
  | none => exact staged_of_inStage (hs.added hticks h' hk).1
  | some st =>
    obtain ⟨st'', h'', hmove⟩ := hs.stakeMove hticks hf hk
    rw [h'] at h''
    cases h''
    exact (hmove.staged (h _ _ hk)).1

theorem RunState.Reachable.allStaged {s : RunState} (h : s.Reachable) : s.tables.AllStaged := by
  have hboth := RunState.Reachable.invariant_ticks
    (I := fun s => s.tables.Fresh ∧ s.tables.AllStaged)
    (fun _ _ => ⟨MemoryTables.fresh_empty, fun _ _ h => by cases h⟩)
    (fun _ _ _ _ h hs hticks => ⟨hs.fresh h.1, hs.allStaged hticks h.1 h.2⟩) h
  exact hboth.2

/-- In every run each stake goes from active to awaiting settlement to settled and never back.
Whatever operation runs from a reachable state, every stake found afterwards is in its stage,
and one the operation added is active; every stake found before is still found, moved only
as `StakeMove` allows (a day of reward while active, its closing in a tick at or after its end
date at a price the oracle gave during that tick, or the claim that settles it) and to the same
stage or a later one. -/
theorem stake_moves_forward {s : RunState} (h : s.Reachable) (op : LedgerOp) (k : Nat) :
    let s' := (op.exec s).2
    (∀ st', s'.tables.findStake k = some st' →
      st'.Staged ∧ (s.tables.findStake k = none → st'.stage = .active)) ∧
    ∀ st, s.tables.findStake k = some st → ∃ st', s'.tables.findStake k = some st' ∧
      StakeMove op s s' k st st' ∧ st.stage.rank ≤ st'.stage.rank := by
  intro s'
  have hs := op.exec_step s
  have hticks := op.exec_ticks s
  have hf := h.fresh
  have hstaged := h.allStaged
  refine ⟨fun st' h' => ⟨hs.allStaged hticks hf hstaged _ _ h', fun hnone => ?_⟩,
    fun st hk => ?_⟩
  · exact stage_of_inStage (hs.added hticks h' hnone).1
  · obtain ⟨st', h', hmove⟩ := hs.stakeMove hticks hf hk
    exact ⟨st', h', hmove, (hmove.staged (hstaged _ _ hk)).2⟩

/-- The lifecycle holds from the empty store, which a run of no operation reaches. -/
theorem stake_moves_forward_at_start :
    let s := RunState.start ⟨fun _ _ => none, fun _ _ => none, fun _ _ => none⟩ ⟨0, 0⟩
    let s' := ((LedgerOp.tick 1000 ⟨0, 0⟩).exec s).2
    (∀ st', s'.tables.findStake 1 = some st' →
      st'.Staged ∧ (s.tables.findStake 1 = none → st'.stage = .active)) ∧
    ∀ st, s.tables.findStake 1 = some st → ∃ st', s'.tables.findStake 1 = some st' ∧
      StakeMove (.tick 1000 ⟨0, 0⟩) s s' 1 st st' ∧ st.stage.rank ≤ st'.stage.rank :=
  stake_moves_forward ⟨_, _, [], rfl⟩ _ 1

end PoolTreasury
