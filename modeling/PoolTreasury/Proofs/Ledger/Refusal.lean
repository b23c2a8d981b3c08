import PoolTreasury.Proofs.Effects.Ledger
import PoolTreasury.Proofs.Effects.Settlement

/-! # A refused operation changes nothing

Every operation checks all it needs before its first write, and a payout is refused only
before its transfer goes out: once the executor has accepted a transfer, the records it
settles are known to exist, so the write that follows cannot be refused. So whatever the
state, an operation the ledger refuses leaves every table as it was (users, pools, stakes,
the operation log, the id counter and the indexes) and sends nothing. A shortfall of
reserve is only reported to the staker and the owner.

The walks of `Proofs/Effects` already say what a refusal leaves, for each operation, in
`Post.keptStep`, `Post.claimExits` and `Post.withdrawExits`. This module reads off them that
the tables and the transfers stay as they were.
-/

namespace PoolTreasury

/-- The tables and the transfers of `s'` are those of `s`. -/
def RunState.Untouched (s s' : RunState) : Prop :=
  s'.tables = s.tables ∧ s'.transfers = s.transfers

theorem RunState.untouched_refl (s : RunState) : s.Untouched s := ⟨rfl, rfl⟩

/-- A send the executor did not accept keeps nothing. -/
theorem RunState.untouched_sendNext {s : RunState} {r : TransferRequest}
    (hs : ∀ h, (s.sendNext r).1 ≠ some (.ok h)) : s.Untouched (s.sendNext r).2 :=
  ⟨RunState.sendNext_tables r, RunState.sendNext_transfers_failed hs⟩

/-- Every refusal leaves `s` untouched; answers and overflows may leave anything. -/
def Post.refusedUntouched {α : Type} (s : RunState) : Post α :=
  ⟨fun _ _ => True, fun _ s' => s.Untouched s', fun _ _ => True⟩

/-- A step whose refusals keep the tables and the transfers leaves `s` untouched when refused. -/
theorem Holds.refusedUntouched_of_keptStep {α : Type} {x : LedgerT RunM α} {op : LedgerOp}
    {s : RunState} (h : Holds x s (Post.keptStep op s)) : Holds x s (.refusedUntouched s) :=
  h.mono (fun _ _ _ => trivial) (fun _ _ h => ⟨h.1, h.2⟩) (fun _ _ _ => trivial)

section

variable (s : RunState)

-- `Holds` is read through its rules here: unfolding it on `registerUser` would evaluate
-- `trimWhite` on a free address.
attribute [local irreducible] Holds

theorem holds_discard_untouched {α : Type} {x : LedgerT RunM α} :
    Holds (discard x) s (.refusedUntouched s) ↔ Holds x s (.refusedUntouched s) :=
  holds_discard

/-- A computation that cannot be refused keeps nothing to check. -/
theorem holdsM_trivial {α : Type} (x : RunM α) :
    HoldsM x s (fun _ _ => True) (fun _ _ => True) := by
  unfold HoldsM
  split <;> trivial

theorem registerUser_refusedUntouched (address : String) :
    Holds (registerUser address) s (.refusedUntouched s) :=
  (registerUser_keptStep s address).refusedUntouched_of_keptStep

theorem createPool_refusedUntouched (params : NewPool) :
    Holds (createPool params) s (.refusedUntouched s) :=
  (createPool_keptStep s params).refusedUntouched_of_keptStep

theorem addReserve_refusedUntouched (pid : Nat) (amount : Decimal) :
    Holds (addReserve pid amount) s (.refusedUntouched s) :=
  (addReserve_keptStep s pid amount).refusedUntouched_of_keptStep

theorem payCommission_refusedUntouched (pid : Nat) (amount required : Decimal) :
    Holds (payCommission pid amount required) s (.refusedUntouched s) :=
  (payCommission_keptStep s pid amount required).refusedUntouched_of_keptStep

theorem setActive_refusedUntouched (pid : Nat) (active : Bool) :
    Holds (setActive pid active) s (.refusedUntouched s) :=
  (setActive_keptStep s pid active).refusedUntouched_of_keptStep

theorem deletePool_refusedUntouched (pid : Nat) :
    Holds (deletePoolChecked pid) s (.refusedUntouched s) :=
  (deletePool_keptStep s pid).refusedUntouched_of_keptStep

theorem createStake_refusedUntouched (userId pid : Nat) (amount price : Decimal) :
    Holds (createStake userId pid amount price) s (.refusedUntouched s) :=
  (createStake_keptStep s userId pid amount price).refusedUntouched_of_keptStep

theorem accrualTick_refusedUntouched (callMs : Nat) (now : Instant) :
    Holds (accrualTick callMs now) s (.refusedUntouched s) := by
  simp only [accrualTick, holds_bind, holds_listActiveStakes, holds_liftM]
  -- the pass itself answers every stake's refusal, and what follows it only logs
  refine HoldsM.mono (holdsM_trivial s _) ?_ (fun _ _ h => h)
  intro _ _ _
  simp only [holds_ite, holds_pure, holds_bind, holds_logAt]
  split <;> trivial

theorem claim_refusedUntouched (limits : CallLimits) (sid : Nat) (kind : ClaimKind) :
    Holds (claim limits sid kind) s (.refusedUntouched s) :=
  (claim_exits s limits sid kind).mono (fun _ _ _ => trivial) (fun _ _ h => ⟨h.1, h.2⟩)
    (fun _ _ _ => trivial)

theorem withdrawReserve_refusedUntouched (limits : CallLimits) (pid requester : Nat) :
    Holds (withdrawReserve limits pid requester) s (.refusedUntouched s) := by
  refine (withdrawReserve_exits s limits pid requester).mono (fun _ _ _ => trivial) ?_
    (fun _ _ _ => trivial)
  -- refused at a check, or by the executor, whose transfer is not kept
  rintro e s' (⟨rfl, -, -⟩ | ⟨p, owed, amount, u, -, hfailed, rfl⟩)
  · exact RunState.untouched_refl _
  · exact RunState.untouched_sendNext hfailed

end

/-- A refusal of an operation whose computation leaves its refusals with `Q` leaves the
state after the run with `Q`. -/
theorem LedgerOp.refused_of_holds {op : LedgerOp} {s : RunState} {Q : Post Unit}
    (h : Holds op.action s Q) {e : LedgerError} (he : (op.exec s).1 = .ok (.error e)) :
    Q.refused e (op.exec s).2 := by
  unfold Holds at h
  unfold LedgerOp.exec at he ⊢
  split at h <;> rename_i heq <;> rw [heq] at he ⊢ <;> cases he
  exact h

-- Each operation is opened through its refusal lemma only, never by running its code.
attribute [local irreducible] Holds in
/-- Whatever the state, an operation the ledger refuses writes no table and sends nothing:
its users, pools, stakes, operation records, id counter and indexes stay as they were. -/
theorem refused_operation_changes_nothing (op : LedgerOp) (s : RunState) {e : LedgerError}
    (h : (op.exec s).1 = .ok (.error e)) :
    (op.exec s).2.tables = s.tables ∧ (op.exec s).2.transfers = s.transfers := by
  refine LedgerOp.refused_of_holds (Q := .refusedUntouched s) ?_ h
  cases op with
  | registerUser a => exact (holds_discard_untouched s).mpr (registerUser_refusedUntouched s a)
  | createPool params =>
    exact (holds_discard_untouched s).mpr (createPool_refusedUntouched s params)
  | addReserve pid amount =>
    exact (holds_discard_untouched s).mpr (addReserve_refusedUntouched s pid amount)
  | payCommission pid amount required =>
    exact (holds_discard_untouched s).mpr (payCommission_refusedUntouched s pid amount required)
  | setActive pid active =>
    exact (holds_discard_untouched s).mpr (setActive_refusedUntouched s pid active)
  | deletePool pid => exact deletePool_refusedUntouched s pid
  | createStake userId pid amount price =>
    exact (holds_discard_untouched s).mpr (createStake_refusedUntouched s userId pid amount price)
  | tick callMs now =>
    exact (holds_discard_untouched s).mpr (accrualTick_refusedUntouched s callMs now)
  | claim limits sid kind =>
    exact (holds_discard_untouched s).mpr (claim_refusedUntouched s limits sid kind)
  | withdrawReserve limits pid requester =>
    exact (holds_discard_untouched s).mpr (withdrawReserve_refusedUntouched s limits pid requester)
  | setClock now =>
    unfold Holds
    trivial

/-- A claim on a stake the empty store does not hold is refused and changes nothing. -/
theorem claim_on_missing_stake_changes_nothing :
    let s := RunState.start ⟨fun _ _ => none, fun _ _ => none, fun _ _ => none⟩ ⟨0, 0⟩
    let op := LedgerOp.claim ⟨1000, 9⟩ 7 .reward
    (op.exec s).1 = .ok (.error (.stakeNotFound 7)) ∧
      (op.exec s).2.tables = s.tables ∧ (op.exec s).2.transfers = s.transfers :=
  ⟨rfl, refused_operation_changes_nothing _ _ rfl⟩

end PoolTreasury
