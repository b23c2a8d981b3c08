import PoolTreasury.Proofs.Commands.SingleWrite

/-! # Retried requests apply once

The processor applies a request by registering its sender, reading the amount, checking the
pool or resolving the token wallet, looking up a price, and calling one ledger operation. When
that is refused with a retriable error (a store failure, an unreachable service, a reserve too
small for now), it runs the whole request again, up to the configured number of attempts.

Since every step before the ledger operation writes nothing, and the operation itself refuses
only before its one write (`Proofs/Commands/SingleWrite`), a refused attempt leaves at most the
sender's registration behind, and the next attempt finds the sender registered. So however the
store, the oracle and the executor fail, one request writes to pools or stakes at most once, and
only when it succeeds, registers its sender at most once, and releases its transaction from the
cursor once. `handleRequest_appliesOnce` states this for every request and every world.

An arithmetic overflow aborts the processor; it is the one outcome after which the transaction
is not released.
-/

namespace PoolTreasury

-- Here `Runs` is read through its rules only: unfolding it would evaluate `registerUser` on a
-- free address, which the elaborator otherwise does at every goal that names it.
attribute [local irreducible] Runs

/-! ## One attempt -/

section Attempt

variable {w w₀ : CmdWorld} {β γ : Type}

theorem liftExcept_quiet {α : Type} (r : Except LedgerError α) :
    Runs (targetPool.liftExcept r : LedgerT CmdM α) w (.always w.Quiet) := by
  unfold targetPool.liftExcept
  split
  · exact runs_pure.mpr (.refl w)
  · exact runs_throw.mpr (.refl w)

theorem targetPool_quiet (request : SubmitTransaction) :
    Runs (targetPool request) w (.always w.Quiet) := by
  unfold targetPool
  refine runs_bind_quiet (liftExcept_quiet _) (.always w) (.refl w) fun payload w₁ h₁ => ?_
  refine runs_bind_quiet (ledgerPool_quiet _) (.always w) h₁ fun p w₂ h₂ => ?_
  dsimp only
  cases request.tokenWallet with
  | none => exact runs_pure.mpr h₂
  | some wallet =>
    dsimp only
    -- the address check is left unevaluated: only its two outcomes matter
    generalize sameAddress wallet p.depositAddress = same
    cases same with
    | false =>
      rw [Bool.not_false, if_pos rfl, runs_throw_bind]
      exact h₂
    | true => exact runs_pure.mpr h₂

theorem ownedPool_quiet (request : SubmitTransaction) (u : User) :
    Runs (ownedPool request u) w (.always w.Quiet) := by
  unfold ownedPool
  refine runs_bind_quiet (targetPool_quiet _) (.always w) (.refl w) fun p w₁ h₁ => ?_
  dsimp only
  split
  · rw [runs_throw_bind]
    exact h₁
  · exact runs_pure.mpr h₁

theorem bounded_resolveTokenWallet_quiet {what : String} {d : Nat} {t o : String} :
    Runs (bounded what .transfer (MonadTransfers.resolveTokenWallet d t o : CmdM _)) w
      (.always w.Quiet) := by
  rw [runs_bounded, goes_resolveTokenWallet]
  split <;> exact .refl w

theorem bounded_usdPrice_quiet {what : String} {d : Nat} {t : String} :
    Runs (bounded what .oracle (MonadPriceOracle.usdPrice d t : CmdM _)) w (.always w.Quiet) := by
  rw [runs_bounded, goes_usdPrice]
  split <;> exact ⟨rfl, rfl, rfl⟩

/-- A ledger operation after steps that wrote nothing, its answer wrapped. -/
theorem runs_operation_then {x : LedgerT CmdM γ} {f : γ → β} (hx : Runs x w (.ledgerStep w))
    (hq : w₀.Quiet w) : Runs (x >>= fun a => pure (f a)) w (.ledgerStep w₀) := by
  rw [runs_bind]
  exact hx.mono (fun _ _ h => runs_pure.mpr (hq.trans_writesOnce h)) (fun _ _ h => hq.trans h)
    (fun _ _ h => hq.trans h)

theorem createPoolRequest_writesOnce (settings : CommandSettings) (request : SubmitTransaction)
    (owner : User) (reserve : Decimal) (payload : Json) :
    Runs (createPoolRequest settings request owner reserve payload) w (.ledgerStep w) := by
  unfold createPoolRequest
  refine runs_bind_quiet bounded_resolveTokenWallet_quiet (.ledgerStep w) (.refl w)
    fun depositAddress w₁ h₁ => ?_
  dsimp only
  cases request.tokenWallet with
  | none => exact runs_operation_then (createPool_writesOnce _) h₁
  | some wallet =>
    dsimp only
    -- as in `targetPool_quiet`, the address check is left unevaluated
    generalize sameAddress wallet depositAddress = same
    cases same with
    | false =>
      rw [Bool.not_false, if_pos rfl, runs_throw_bind]
      exact h₁
    | true => exact runs_operation_then (createPool_writesOnce _) h₁

/-- One attempt at a request of sender `a`, from `w₀`: it registers `a` at most once, and then
writes to pools or stakes at most once, and only when it succeeds. -/
def CmdWorld.Post.attempt {α : Type} (a : String) (w₀ : CmdWorld) : CmdWorld.Post α :=
  ⟨fun _ w' => ∃ w₁, w₀.Registers a w₁ ∧ w₁.WritesOnce w',
    fun _ w' => w₀.Registers a w', fun _ w' => w₀.Registers a w'⟩

theorem applyRequest_attempt (settings : CommandSettings) (request : SubmitTransaction) :
    Runs (applyRequest settings request) w (.attempt request.sender w) := by
  unfold applyRequest
  rw [runs_bind]
  refine (registerUser_writesRegistration _).mono (fun user w₁ hreg => ?_)
    (fun _ _ h => .known h) (fun _ _ h => .known h)
  -- past the registration, the request is one ledger step
  refine Runs.mono (Q := .ledgerStep w₁) ?_ (fun _ w' h => ⟨w₁, hreg, h⟩)
    (fun _ _ h => hreg.trans_quiet h) (fun _ _ h => hreg.trans_quiet h)
  dsimp only
  split
  · rw [pure_bind]
    split
    · split
      · exact runs_throw.mpr (.refl w₁)
      · exact createPoolRequest_writesOnce _ _ _ _ _
    · refine runs_bind_quiet (ownedPool_quiet _ _) (.ledgerStep w₁) (.refl w₁) fun p w₂ h₂ => ?_
      exact runs_operation_then (addReserve_writesOnce _ _) h₂
    · refine runs_bind_quiet (targetPool_quiet _) (.ledgerStep w₁) (.refl w₁) fun p w₂ h₂ => ?_
      refine runs_bind_quiet bounded_usdPrice_quiet (.ledgerStep w₁) h₂ fun price w₃ h₃ => ?_
      exact runs_operation_then (createStake_writesOnce _ _ _ _) h₃
    · refine runs_bind_quiet (ownedPool_quiet _ _) (.ledgerStep w₁) (.refl w₁) fun p w₂ h₂ => ?_
      exact runs_operation_then (payCommission_writesOnce _ _ _) h₂
  · rw [runs_throw_bind]
    exact .refl w₁

end Attempt

/-! ## The attempts at a request -/

/-- The attempts at one request, from `w`, each a run of `applyRequest` from where the one
before left the world: every attempt but the last was refused with a retriable error, and the
last one's outcome is the answer. -/
inductive Attempts (settings : CommandSettings) (request : SubmitTransaction) :
    Nat → CmdWorld → Except Overflow (Except LedgerError CommandOutcome) → CmdWorld → Prop
  | last {w r w'} :
      (applyRequest settings request : LedgerT CmdM CommandOutcome).run.run.run w = (r, w') →
      Attempts settings request 1 w r w'
  | retry {n w e w₁ r w'} :
      (applyRequest settings request : LedgerT CmdM CommandOutcome).run.run.run w =
        (.ok (.error e), w₁) →
      e.isRetriable = true → Attempts settings request n w₁ r w' →
      Attempts settings request (n + 1) w r w'

/-- From its `attempt`-th attempt on, the processor makes attempts that fit in the configured
number, which counts as one when it is zero. -/
theorem applyWithRetry_attempts (settings : CommandSettings) (request : SubmitTransaction)
    (fuel : Nat) : ∀ attempt w, attempt ≤ max 1 settings.retryAttempts →
    Goes (applyWithRetry settings request attempt fuel) w
      (fun r w' => ∃ n, attempt + n ≤ max 1 settings.retryAttempts + 1 ∧
        Attempts settings request n w (.ok r) w')
      (fun o w' => ∃ n, attempt + n ≤ max 1 settings.retryAttempts + 1 ∧
        Attempts settings request n w (.error o) w') := by
  induction fuel with
  | zero =>
    intro attempt w hle
    unfold applyWithRetry Goes
    rcases hr : (applyRequest settings request : LedgerT CmdM CommandOutcome).run.run.run w with
      ⟨o | r, w'⟩
    · exact ⟨1, by omega, .last hr⟩
    · exact ⟨1, by omega, .last hr⟩
  | succ fuel ih =>
    intro attempt w hle
    unfold applyWithRetry
    rw [goes_bind]
    rcases hr : (applyRequest settings request : LedgerT CmdM CommandOutcome).run.run.run w with
      ⟨o | r, w₁⟩
    · rw [goes_of_run hr]
      exact ⟨1, by omega, .last hr⟩
    rw [goes_of_run hr]
    dsimp only
    cases r with
    | ok a => exact ⟨1, by omega, .last hr⟩
    | error e =>
      dsimp only
      split
      · rename_i hretry
        simp only [Bool.and_eq_true, decide_eq_true_eq] at hretry
        rw [goes_bind, goes_logAt, goes_bind, goes_sleep]
        -- the next attempt is still within the bound, since this one was below it
        refine (ih (attempt + 1) w₁ (by omega)).mono ?_ ?_
        · rintro r w' ⟨n, hn, hrest⟩
          exact ⟨n + 1, by omega, .retry hr hretry.1 hrest⟩
        · rintro o w' ⟨n, hn, hrest⟩
          exact ⟨n + 1, by omega, .retry hr hretry.1 hrest⟩
      · exact ⟨1, by omega, .last hr⟩

/-! ## What the attempts apply -/

namespace CmdWorld

/-- What handling a request of sender `a` may change from `w` to `w'`: at most one write to
pools or stakes, and none unless `succeeded`; and at most one registration, of `a`, only when no
one had that address. -/
structure AppliedOnce (a : String) (succeeded : Prop) (w w' : CmdWorld) : Prop where
  ledgerWrites : w'.ledgerWrites ≤ w.ledgerWrites + 1
  succeeded_of_write : w.ledgerWrites < w'.ledgerWrites → succeeded
  registered : w'.registered = w.registered ∨ ¬ w.HasUser a ∧ w'.registered = w.registered ++ [a]

variable {a : String} {S : Prop} {w w₁ w' : CmdWorld}

theorem WritesOnce.appliedOnce (h : w.WritesOnce w') (hs : S) : w.AppliedOnce a S w' :=
  ⟨h.ledgerWrites, fun _ => hs, .inl h.registered⟩

theorem AppliedOnce.imp {S' : Prop} (h : w.AppliedOnce a S w') (hs : S → S') :
    w.AppliedOnce a S' w' :=
  ⟨h.ledgerWrites, fun hlt => hs (h.succeeded_of_write hlt), h.registered⟩

/-- Steps that change neither count keep what was applied. -/
theorem AppliedOnce.of_same {w'' : CmdWorld} (h : w.AppliedOnce a S w')
    (hwrites : w''.ledgerWrites = w'.ledgerWrites) (hreg : w''.registered = w'.registered) :
    w.AppliedOnce a S w'' := by
  refine ⟨hwrites ▸ h.ledgerWrites, fun hlt => h.succeeded_of_write (hwrites ▸ hlt), ?_⟩
  rw [hreg]
  exact h.registered

/-- A registration before a step of at most one registration: the two cannot both register,
since the first leaves the address taken. -/
theorem AppliedOnce.of_registers (h : w₁.AppliedOnce a S w') (hr : w.Registers a w₁) :
    w.AppliedOnce a S w' := by
  have hwrites := hr.ledgerWrites
  refine ⟨hwrites ▸ h.ledgerWrites, fun hlt => h.succeeded_of_write (hwrites ▸ hlt), ?_⟩
  cases hr with
  | known hq =>
    have hsame : w₁.HasUser a ↔ w.HasUser a := by rw [CmdWorld.HasUser, CmdWorld.HasUser, hq.byAddress]
    rw [← hq.registered]
    exact h.registered.imp_right fun hnew => ⟨mt hsame.mpr hnew.1, hnew.2⟩
  | new hfresh htaken htrail _ =>
    have hreg : w₁.registered = w.registered ++ [a] := by
      simp [registered_of_trail htrail, StoreWrite.registration]
    rcases h.registered with hsame | ⟨hnew, _⟩
    · exact .inr ⟨hfresh, hsame.trans hreg⟩
    · exact absurd htaken hnew

theorem Registers.appliedOnce (h : w.Registers a w') : w.AppliedOnce a S w' :=
  AppliedOnce.of_registers ⟨Nat.le_succ _, fun hlt => absurd hlt (Nat.lt_irrefl _), .inl rfl⟩ h

end CmdWorld

variable {settings : CommandSettings} {request : SubmitTransaction}

/-- Over all its attempts, a request registers its sender at most once and writes to pools or
stakes at most once, only when the answer is a success; the cursor is not touched. -/
theorem Attempts.appliedOnce {n : Nat} {r : Except Overflow (Except LedgerError CommandOutcome)}
    {w w' : CmdWorld} (h : Attempts settings request n w r w') :
    w.AppliedOnce request.sender (∃ o, r = .ok (.ok o)) w' ∧ w'.cursor = w.cursor := by
  induction h with
  | @last w r w' hr =>
    have hpost := (applyRequest_attempt settings request).of_run hr
    rcases r with o | e | o
    · exact ⟨hpost.appliedOnce, hpost.cursor⟩
    · exact ⟨hpost.appliedOnce, hpost.cursor⟩
    · obtain ⟨w₁, hreg, hstep⟩ := hpost
      exact ⟨(hstep.appliedOnce ⟨o, rfl⟩).of_registers hreg, hstep.cursor.trans hreg.cursor⟩
  | @retry n w e w₁ r w' hr _ _ ih =>
    have hfirst : w.Registers request.sender w₁ := (applyRequest_attempt settings request).of_run hr
    exact ⟨ih.1.of_registers hfirst, ih.2.trans hfirst.cursor⟩

/-! ## Handling a request -/

/-- The cursor after releasing `lt` once: the release made, and its safe point saved when there
was one to save and the store took it. -/
def CursorState.Released (lt : Nat) (c c' : CursorState) : Prop :=
  c' = (c.release lt).1 ∨
    ∃ p, (c.release lt).2 = some p ∧ c' = { (c.release lt).1 with saved := some p }

theorem releaseCursor_released (lt : Nat) {w : CmdWorld} :
    Goes (releaseCursor lt : CmdM Unit) w (fun _ w' => CursorState.Released lt w.cursor w'.cursor ∧
      w'.ledgerWrites = w.ledgerWrites ∧ w'.registered = w.registered) (fun _ _ => False) := by
  unfold releaseCursor
  rw [goes_bind, goes_cursorState]
  rcases hrel : w.cursor.release lt with ⟨s, point⟩
  dsimp only
  rw [goes_bind, goes_setCursorState]
  cases point with
  | none => exact ⟨.inl (by rw [hrel]), rfl, rfl⟩
  | some p =>
    dsimp only
    rw [goes_bind]
    show Goes (CmdWorld.storeCall _ _) _ _ _
    rw [goes_storeCall]
    split
    -- the store failed the save: the point stays unsaved
    · exact ⟨.inl (by rw [hrel]; rfl), rfl, rfl⟩
    · exact ⟨.inr ⟨p, by rw [hrel], by rw [hrel]⟩, CmdWorld.ledgerWrites_of_append rfl rfl,
        CmdWorld.registered_of_append rfl rfl⟩

/-- Handling a request makes at most the configured number of attempts (one when it is zero),
retrying only after a retriable refusal; over all of them it writes to pools or stakes at most
once, and only when the answer is a success, and registers the sender at most once, only when
the address was new. When it answers, it has released the request's transaction from the cursor
once; an overflow aborts it before the release. -/
theorem handleRequest_appliesOnce (settings : CommandSettings) (request : SubmitTransaction)
    (w : CmdWorld) :
    Goes (handleRequest settings request) w
      (fun r w' => ∃ n w₁, n ≤ max 1 settings.retryAttempts ∧
        Attempts settings request n w (.ok r) w₁ ∧
        w.AppliedOnce request.sender (∃ o, r = .ok o) w' ∧
        CursorState.Released request.lt w.cursor w'.cursor)
      (fun o w' => ∃ n, n ≤ max 1 settings.retryAttempts ∧
        Attempts settings request n w (.error o) w' ∧
        w.AppliedOnce request.sender False w' ∧ w'.cursor = w.cursor) := by
  unfold handleRequest
  rw [goes_bind]
  refine (applyWithRetry_attempts settings request _ 1 w (by omega)).mono ?_ ?_
  · rintro r w₁ ⟨n, hn, hatt⟩
    obtain ⟨happ, hcursor⟩ := hatt.appliedOnce
    have happ' : w.AppliedOnce request.sender (∃ o, r = .ok o) w₁ :=
      happ.imp fun ⟨o, ho⟩ => ⟨o, by injection ho⟩
    dsimp only
    -- either answer is logged, and then the transaction is released
    split
    all_goals
      rw [goes_bind, goes_logAt, goes_bind]
      refine (releaseCursor_released request.lt).mono ?_ (fun _ _ h => h.elim)
      rintro _ w₂ ⟨hrel, hwrites, hreg⟩
      exact ⟨n, w₁, by omega, hatt, happ'.of_same hwrites hreg, hcursor ▸ hrel⟩
  · rintro o w' ⟨n, hn, hatt⟩
    obtain ⟨happ, hcursor⟩ := hatt.appliedOnce
    have hnone : (∃ o', (Except.error o : Except Overflow (Except LedgerError CommandOutcome)) =
        .ok (.ok o')) → False :=
      fun ⟨_, ho⟩ => by cases ho
    exact ⟨n, by omega, hatt, happ.imp hnone, hcursor⟩

end PoolTreasury
