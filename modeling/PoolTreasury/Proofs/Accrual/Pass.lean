import PoolTreasury.Proofs.Run.Invariant

/-! # What a tick ends with

A tick is the accrual pass over the stakes listed as active, from an empty cache
(`accrualTick_cached`): it is never refused, and it answers with the whole pass or is cut
short by an overflow (`TickEnds`). The run invariants at the end may rely on what the pass
did at each tick.

Failed lookups are not cached, so a token may be looked up more than once in a tick, and a
stake skipped for want of a price stays active although a later stake of its token closes.
What the cache does guarantee (`tick_prices_each_token_once`): the tick ends with one price
per token, each answered by the oracle during the tick; every stake it closes records its
token's price and the close date `now`; a stake before maturity earns its day of reward as
`nextBalance` computes it; and the oracle is asked at most once per token it priced, plus once
per stake skipped or failed.
-/

namespace PoolTreasury

/-- What a tick at `now` from `s` answers and leaves in `s'`: the whole pass over the stakes
listed as active when it answers, the pass cut short when it overflows, and never a refusal;
every closing price is one the oracle answered during the tick, and nothing is sent. -/
def TickEnds (now : Instant) (s : RunState) (r : Outcome) (s' : RunState) : Prop :=
  s.PassStep s' ∧
    match r with
    | .ok (.ok ()) =>
      TickPass now (s.outside.Priced s.lookups s'.lookups) s.tables.activeStakes s.tables s'.tables
    | .ok (.error _) => False
    | .error _ =>
      TickPassCut now (s.outside.Priced s.lookups s'.lookups) s.tables.activeStakes s.tables
        s'.tables

theorem accrualTick_ends (s : RunState) (callMs : Nat) (now : Instant) :
    Holds (accrualTick callMs now) s
      ⟨fun _ s' => TickEnds now s (.ok (.ok ())) s', fun e s' => TickEnds now s (.ok (.error e)) s',
        fun o s' => TickEnds now s (.error o) s'⟩ := by
  refine Holds.mono (accrualTick_cached s callMs now) ?_ ?_ ?_
  · rintro report s' ⟨hstep, -, -, prices, -, hcp, -, hpass⟩
    exact ⟨hstep, hpass.mono fun _ _ h => hcp.of_cachedPrice h⟩
  · rintro e s' hfalse
    exact hfalse.elim
  · rintro o s' hcut
    exact hcut

theorem tick_prices_each_token_once (s : RunState) (callMs : Nat) (now : Instant) :
    Holds (accrualTick callMs now) s
      ⟨fun report s' => report.scanned = s.tables.activeStakes.length ∧
          report.scanned =
            report.accrued + report.capped + report.closed + report.skipped + report.failed ∧
          ∃ prices : List (String × Decimal), (prices.map (·.1)).Nodup ∧
            CachePriced s.outside s.lookups s'.lookups prices ∧
            s'.lookups ≤ s.lookups + prices.length + report.skipped + report.failed ∧
            TickPass now (fun token price => cachedPrice prices token = some price)
              s.tables.activeStakes s.tables s'.tables,
        fun _ _ => False, fun _ _ => True⟩ := by
  refine Holds.mono (accrualTick_cached s callMs now) ?_ ?_ ?_
  · rintro report s' ⟨-, hscan, hsum, hprices⟩
    exact ⟨hscan, hsum.symm, hprices⟩
  · rintro e s' hfalse
    exact hfalse
  · intros
    trivial

/-- Two stakes of 5 in one pool of token `0:master`, both ending a day after the start. -/
def twoStakeRun : List LedgerOp :=
  [.registerUser "0:owner", .registerUser "0:staker",
    .createPool ⟨1, Decimal.ofNat 1000, "0:master", "0:deposit", Decimal.ofNat 2, 1,
      Decimal.ofNat 10⟩,
    .payCommission 3 (Decimal.ofNat 5) (Decimal.ofNat 5), .setActive 3 true,
    .createStake 2 3 (Decimal.ofNat 5) Decimal.one, .createStake 2 3 (Decimal.ofNat 5) Decimal.one]

/-- An oracle whose first lookup fails and which answers 1 after. -/
def failingOnceOracle : Outside :=
  ⟨fun k _ => if k = 0 then some (.error (.noPrice "0:master")) else some (.ok Decimal.one),
    fun _ _ => none, fun _ _ => none⟩

/-- A tick at the end of both terms asks the oracle twice for the one token: the first stake
is skipped and stays active, and the second closes at the price of the second lookup. -/
example :
    let s := (RunState.start failingOnceOracle ⟨0, 0⟩).runOps twoStakeRun
    let s' := ((LedgerOp.tick 1000 ⟨86400, 0⟩).exec s).2
    s'.lookups = 2 ∧ (s'.tables.findStake 7).map (·.isActive) = some true ∧
      (s'.tables.findStake 9).map (·.closePrice) = some (some Decimal.one) := by
  decide +kernel

/-- Every tick ends as `TickEnds` says. -/
theorem LedgerOp.exec_tick (callMs : Nat) (now : Instant) (s : RunState) :
    TickEnds now s ((LedgerOp.tick callMs now).exec s).1 ((LedgerOp.tick callMs now).exec s).2 := by
  have h := (holds_discard (Q := ⟨fun _ s' => TickEnds now s (.ok (.ok ())) s',
    fun e s' => TickEnds now s (.ok (.error e)) s', fun o s' => TickEnds now s (.error o) s'⟩)).mpr
    (accrualTick_ends s callMs now)
  unfold Holds at h
  unfold LedgerOp.exec LedgerOp.action
  split at h <;> rename_i heq <;> rw [heq] <;> exact h

/-- What a tick's pass did, for an operation that is a tick. -/
theorem LedgerOp.exec_ticks (op : LedgerOp) (s : RunState) :
    ∀ callMs now, op = .tick callMs now → TickEnds now s (op.exec s).1 (op.exec s).2 := by
  rintro callMs now rfl
  exact LedgerOp.exec_tick callMs now s

/-! ## Invariants that follow the pass -/

namespace RunState

variable {I : RunState → Prop}

/-- A property that every step keeps, told what the pass of a tick did, holds after any run. -/
theorem runOps_invariant_ticks (hstep : ∀ op s r s', I s → OpStep op s r s' →
    (∀ callMs now, op = .tick callMs now → TickEnds now s r s') → I s') :
    ∀ (s : RunState) (ops : List LedgerOp), I s → I (s.runOps ops) :=
  runOps_invariant_of_exec (R := fun op s r s' => OpStep op s r s' ∧
      ∀ callMs now, op = .tick callMs now → TickEnds now s r s')
    (fun op s => ⟨op.exec_step s, op.exec_ticks s⟩)
    (fun op s r s' h hs => hstep op s r s' h hs.1 hs.2)

/-- The same for a property that only the steps without an overflow keep, along a run
without one. -/
theorem runOps_invariant_ticks_of_unbroken (hstep : ∀ op s r s', I s → OpStep op s (.ok r) s' →
    (∀ callMs now, op = .tick callMs now → TickEnds now s (.ok r) s') → I s') :
    ∀ (s : RunState) (ops : List LedgerOp), s.Unbroken ops → I s → I (s.runOps ops) :=
  runOps_invariant_of_exec_unbroken (R := fun op s r s' => OpStep op s r s' ∧
      ∀ callMs now, op = .tick callMs now → TickEnds now s r s')
    (fun op s => ⟨op.exec_step s, op.exec_ticks s⟩)
    (fun op s r s' h hs => hstep op s r s' h hs.1 hs.2)

/-- A property of the empty store that every step keeps, told what the pass of a tick did,
holds at every reachable state. -/
theorem Reachable.invariant_ticks (hstart : ∀ outside clock, I (start outside clock))
    (hstep : ∀ op s r s', I s → OpStep op s r s' →
      (∀ callMs now, op = .tick callMs now → TickEnds now s r s') → I s')
    {s : RunState} (h : s.Reachable) : I s := by
  obtain ⟨outside, clock, ops, rfl⟩ := h
  exact runOps_invariant_ticks hstep _ ops (hstart outside clock)

end RunState

end PoolTreasury
