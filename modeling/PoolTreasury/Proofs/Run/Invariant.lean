import PoolTreasury.Proofs.Effects.Ledger
import PoolTreasury.Proofs.Effects.Settlement
import PoolTreasury.Proofs.Effects.Accrual

/-! # Invariants of runs

Every operation ends in one of its steps, whatever the state and whatever the collaborators
answer. So a property that the empty store has and that every step keeps holds all along any
run, and one that only the steps without an overflow keep holds along the runs that no
overflow cut short. The induction on the run is made once, for any description of the
transitions that every execution meets; the steps are one such description, and a step told
what a tick's pass did is another.
-/

namespace PoolTreasury

-- Each operation is opened through its effect lemma only: unfolding `Holds` on the way would
-- run the operation's code on an unknown state.
attribute [local irreducible] Holds in
/-- Every operation, from any state, ends in one of its steps. -/
theorem LedgerOp.exec_step (op : LedgerOp) (s : RunState) :
    OpStep op s (op.exec s).1 (op.exec s).2 := by
  apply LedgerOp.exec_step_of_holds
  cases op with
  | registerUser a => exact holds_discard_step.mpr (registerUser_step s a)
  | createPool params => exact holds_discard_step.mpr (createPool_step s params)
  | addReserve pid amount => exact holds_discard_step.mpr (addReserve_step s pid amount)
  | payCommission pid amount required =>
    exact holds_discard_step.mpr (payCommission_step s pid amount required)
  | setActive pid active => exact holds_discard_step.mpr (setActive_step s pid active)
  | deletePool pid => exact deletePool_step s pid
  | createStake userId pid amount price =>
    exact holds_discard_step.mpr (createStake_step s userId pid amount price)
  | tick callMs now => exact holds_discard_step.mpr (accrualTick_step s callMs now)
  | claim limits sid kind => exact holds_discard_step.mpr (claim_step s limits sid kind)
  | withdrawReserve limits pid requester =>
    exact holds_discard_step.mpr (withdrawReserve_step s limits pid requester)
  | setClock now =>
    unfold Holds
    exact OpStep.quiet rfl rfl

/-- A property of the tables that every write of the accrual pass keeps holds after the pass,
however far it got. A write for a stake may rely on that stake being one of the listed ones. -/
theorem TickRun.invariant {P : MemoryTables → Prop} {now : Instant} {xs : List Stake}
    (hw : ∀ {x t t'}, x ∈ xs → TickWrite now x t t' → P t → P t') {t t' : MemoryTables}
    (hr : TickRun now xs t t') (h : P t) : P t' := by
  induction hr with
  | stop => exact h
  | @next x xs _ _ _ hws _ ih =>
    -- the writes for the head stake, one after another, then the rest of the pass
    have hhead : ∀ {t t'}, Relation.ReflTransGen (TickWrite now x) t t' → P t → P t' := by
      intro t t' hws
      induction hws with
      | refl => exact id
      | tail _ hw' ih' => exact fun h => hw List.mem_cons_self hw' (ih' h)
    exact ih (fun hx => hw (List.mem_cons_of_mem x hx)) (hhead hws h)

namespace RunState

variable {I : RunState → Prop} {R : LedgerOp → RunState → Outcome → RunState → Prop}

/-- A property kept by every transition `R` allows holds after any run, when every operation
executes as one of them. The induction is on the run. -/
theorem runOps_invariant_of_exec (hexec : ∀ op s, R op s (op.exec s).1 (op.exec s).2)
    (hstep : ∀ op s r s', I s → R op s r s' → I s') :
    ∀ (s : RunState) (ops : List LedgerOp), I s → I (s.runOps ops)
  | _, [], h => h
  | s, op :: ops, h => runOps_invariant_of_exec hexec hstep _ ops (hstep op s _ _ h (hexec op s))

/-- The same along a run that no overflow cut short, for a property kept by the transitions
without one. -/
theorem runOps_invariant_of_exec_unbroken (hexec : ∀ op s, R op s (op.exec s).1 (op.exec s).2)
    (hstep : ∀ op s r s', I s → R op s (.ok r) s' → I s') :
    ∀ (s : RunState) (ops : List LedgerOp), s.Unbroken ops → I s → I (s.runOps ops)
  | _, [], _, h => h
  | s, op :: ops, ⟨⟨r, hr⟩, hrest⟩, h =>
    runOps_invariant_of_exec_unbroken hexec hstep _ ops hrest (hstep op s r _ h (hr ▸ hexec op s))

/-- A property every step keeps holds after any run. -/
theorem runOps_invariant (hstep : ∀ op s r s', I s → OpStep op s r s' → I s') :
    ∀ (s : RunState) (ops : List LedgerOp), I s → I (s.runOps ops) :=
  runOps_invariant_of_exec LedgerOp.exec_step hstep

/-- A property every step without an overflow keeps holds after any run without one. -/
theorem runOps_invariant_of_unbroken
    (hstep : ∀ op s r s', I s → OpStep op s (.ok r) s' → I s') :
    ∀ (s : RunState) (ops : List LedgerOp), s.Unbroken ops → I s → I (s.runOps ops) :=
  runOps_invariant_of_exec_unbroken LedgerOp.exec_step hstep

/-- A property of the empty store that every step keeps holds at every reachable state. -/
theorem Reachable.invariant (hstart : ∀ outside clock, I (start outside clock))
    (hstep : ∀ op s r s', I s → OpStep op s r s' → I s') {s : RunState} (h : s.Reachable) :
    I s := by
  obtain ⟨outside, clock, ops, rfl⟩ := h
  exact runOps_invariant hstep _ ops (hstart outside clock)

end RunState

end PoolTreasury
