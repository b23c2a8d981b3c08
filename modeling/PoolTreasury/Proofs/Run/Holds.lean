import PoolTreasury.Proofs.Run.State
import PoolTreasury.Proofs.Store.Lookup

/-! # What a computation ends in

`Holds x s Q` runs `x` from `s` and asks `Q` about the outcome: an answer, a refusal of the
ledger or an overflow, each with the state afterwards. The lemmas below take a computation
apart one bind at a time, so that what an operation does is read off its code step by step
and never by evaluating it.
-/

namespace PoolTreasury

/-- What may be asked of each outcome of a computation. -/
structure Post (α : Type) where
  ok : α → RunState → Prop
  refused : LedgerError → RunState → Prop
  overflow : Overflow → RunState → Prop

/-- The same requirement of the state after every outcome. -/
@[reducible] def Post.always {α : Type} (P : RunState → Prop) : Post α := ⟨fun _ => P, fun _ => P, fun _ => P⟩

section Always

variable {α : Type} {P : RunState → Prop} {s : RunState}

@[simp] theorem Post.always_ok {a : α} : (Post.always P).ok a s ↔ P s := Iff.rfl

@[simp] theorem Post.always_refused {e : LedgerError} : (Post.always P : Post α).refused e s ↔ P s :=
  Iff.rfl

@[simp] theorem Post.always_overflow {o : Overflow} :
    (Post.always P : Post α).overflow o s ↔ P s := Iff.rfl

end Always

/-- The outcome of `x` run from `s` satisfies `Q`. -/
def Holds {α : Type} (x : LedgerT RunM α) (s : RunState) (Q : Post α) : Prop :=
  match x.run.run.run s with
  | (.ok (.ok a), s') => Q.ok a s'
  | (.ok (.error e), s') => Q.refused e s'
  | (.error o, s') => Q.overflow o s'

/-- The same for a computation the ledger cannot refuse. -/
def HoldsM {α : Type} (x : RunM α) (s : RunState) (ok : α → RunState → Prop)
    (overflow : Overflow → RunState → Prop) : Prop :=
  match x.run.run s with
  | (.ok a, s') => ok a s'
  | (.error o, s') => overflow o s'

section Combinators

variable {α β : Type} {s : RunState} {Q : Post β}

theorem holds_bind {x : LedgerT RunM α} {f : α → LedgerT RunM β} :
    Holds (x >>= f) s Q ↔ Holds x s ⟨fun a s' => Holds (f a) s' Q, Q.refused, Q.overflow⟩ := by
  unfold Holds
  simp only [ExceptT.run_bind]
  rcases h : x.run.run.run s with ⟨r, s'⟩
  rw [StateT.run_bind, h]
  rcases r with o | e | a <;> rfl

theorem holds_pure {a : β} : Holds (pure a) s Q ↔ Q.ok a s := Iff.rfl

/-- What holds of every outcome under `Q` holds under any weaker `Q'`. -/
theorem Holds.mono {x : LedgerT RunM β} {Q' : Post β} (h : Holds x s Q)
    (hok : ∀ a s', Q.ok a s' → Q'.ok a s') (hrefused : ∀ e s', Q.refused e s' → Q'.refused e s')
    (hoverflow : ∀ o s', Q.overflow o s' → Q'.overflow o s') : Holds x s Q' := by
  unfold Holds at h ⊢
  split at h
  · exact hok _ _ h
  · exact hrefused _ _ h
  · exact hoverflow _ _ h

theorem holds_throw {e : LedgerError} : Holds (throw e : LedgerT RunM β) s Q ↔ Q.refused e s :=
  Iff.rfl

theorem holds_lift {x : RunM β} : Holds (ExceptT.lift x) s Q ↔ HoldsM x s Q.ok Q.overflow := by
  unfold Holds HoldsM
  simp only [ExceptT.run_lift, ExceptT.run_map, StateT.run_map]
  rcases x.run.run s with ⟨o | a, s'⟩ <;> rfl

theorem holds_liftM {x : RunM β} : Holds (liftM x) s Q ↔ HoldsM x s Q.ok Q.overflow :=
  holds_lift

theorem holds_map {x : LedgerT RunM α} {f : α → β} :
    Holds (f <$> x) s Q ↔ Holds x s ⟨fun a s' => Q.ok (f a) s', Q.refused, Q.overflow⟩ := by
  rw [← bind_pure_comp, holds_bind]
  rfl

theorem holds_discard {x : LedgerT RunM α} {Q : Post Unit} :
    Holds (discard x) s Q ↔ Holds x s ⟨fun _ s' => Q.ok () s', Q.refused, Q.overflow⟩ :=
  holds_map

/-- What is required of every outcome holds of the state the computation ends in. -/
theorem state_of_holds {x : LedgerT RunM α} {P : RunState → Prop}
    (h : Holds x s (.always P)) : P (x.run.run.run s).2 := by
  unfold Holds at h
  split at h <;> rename_i heq <;> rw [heq] <;> exact h

theorem holds_tryCatch {x : LedgerT RunM β} {h : LedgerError → LedgerT RunM β} :
    Holds (tryCatch x h) s Q ↔ Holds x s ⟨Q.ok, fun e s' => Holds (h e) s' Q, Q.overflow⟩ := by
  change Holds (ExceptT.tryCatch x h) s Q ↔ _
  unfold Holds ExceptT.run StateT.run
  simp only [ExceptT.tryCatch, ExceptT.mk, bind, ExceptT.bind, StateT.bind, ExceptT.bindCont]
  cases x s with
  | mk r s' => rcases r with o | e | a <;> rfl

theorem holds_checked {r : Except Overflow β} :
    Holds (checked r) s Q ↔ match r with
      | .ok a => Q.ok a s
      | .error o => Q.overflow o s := by
  cases r <;> rfl

theorem holds_ite {c : Prop} [Decidable c] {x y : LedgerT RunM β} :
    Holds (if c then x else y) s Q ↔ if c then Holds x s Q else Holds y s Q := by
  split <;> rfl

theorem holdsM_bind {x : RunM α} {f : α → RunM β} {ok : β → RunState → Prop} {ov} :
    HoldsM (x >>= f) s ok ov ↔ HoldsM x s (fun a s' => HoldsM (f a) s' ok ov) ov := by
  unfold HoldsM
  simp only [ExceptT.run_bind]
  rcases h : x.run.run s with ⟨r, s'⟩
  rw [StateT.run_bind, h]
  rcases r with o | a <;> rfl

/-- Running a computation of the ledger as a computation that cannot be refused keeps its
refusal as its answer. -/
theorem holdsM_run {x : LedgerT RunM α} {ok : Except LedgerError α → RunState → Prop} {ov} :
    HoldsM x.run s ok ov ↔ Holds x s ⟨fun a => ok (.ok a), fun e => ok (.error e), ov⟩ := by
  unfold HoldsM Holds
  rcases x.run.run.run s with ⟨o | e | a, s'⟩ <;> rfl

/-- What holds of every outcome under one requirement holds under any weaker one. -/
theorem HoldsM.mono {x : RunM β} {ok ok' : β → RunState → Prop}
    {ov ov' : Overflow → RunState → Prop} (h : HoldsM x s ok ov)
    (hok : ∀ a s', ok a s' → ok' a s') (hov : ∀ o s', ov o s' → ov' o s') :
    HoldsM x s ok' ov' := by
  unfold HoldsM at h ⊢
  split at h
  · exact hok _ _ h
  · exact hov _ _ h

theorem holdsM_pure {a : β} {ok : β → RunState → Prop} {ov} : HoldsM (pure a) s ok ov ↔ ok a s :=
  Iff.rfl

end Combinators

/-! ## Effects that reach no one -/

section Silent

variable {β : Type} {s : RunState} {Q : Post Unit}

theorem holds_logAt {level : LogLevel} {msg : String} {fields : List (String × String)} :
    Holds (logAt level msg fields : LedgerT RunM Unit) s Q ↔ Q.ok () s := Iff.rfl

theorem holdsM_logAt {level : LogLevel} {msg : String} {fields : List (String × String)}
    {ok : Unit → RunState → Prop} {ov} :
    HoldsM (logAt level msg fields : RunM Unit) s ok ov ↔ ok () s := Iff.rfl

theorem holds_publish {n : Notification} :
    Holds (MonadNotify.publish n : LedgerT RunM Unit) s Q ↔ Q.ok () s := Iff.rfl

theorem holds_now {Q : Post Instant} :
    Holds (MonadClock.now : LedgerT RunM Instant) s Q ↔ Q.ok s.clock s := Iff.rfl

end Silent

/-! ## Store calls -/

section Store

variable {β : Type} {s : RunState} {Q : Post β}

/-- A store call as the ledger makes it: a store failure is the ledger's refusal. -/
theorem holds_io {x : RunM (Except StoreError β)} :
    Holds (io x) s Q ↔ HoldsM x s (fun r s' => match r with
      | .ok a => Q.ok a s'
      | .error e => Q.refused (.storage e) s') Q.overflow := by
  unfold io
  rw [holds_bind, holds_liftM]
  unfold HoldsM
  rcases x.run.run s with ⟨o | r, s'⟩
  · rfl
  · rcases r <;> rfl

theorem holdsM_reading {f : MemoryTables → β} {ok : Except StoreError β → RunState → Prop} {ov} :
    HoldsM (RunState.reading f) s ok ov ↔ ok (.ok (f s.tables)) s := Iff.rfl

theorem holdsM_writing {f : MemoryTables → β × MemoryTables} {ok : β → RunState → Prop} {ov} :
    HoldsM (RunState.writing f) s ok ov ↔ ok (f s.tables).1 { s with tables := (f s.tables).2 } :=
  Iff.rfl

theorem holds_ledgerPool {id : Nat} {Q : Post Pool} :
    Holds (ledgerPool id) s Q ↔ match s.tables.findPool id with
      | some p => Q.ok p s
      | none => Q.refused (.poolNotFound id) s := by
  unfold ledgerPool
  rw [holds_bind, holds_io]
  show HoldsM (RunState.reading (·.findPool id)) s _ _ ↔ _
  rw [holdsM_reading]
  cases s.tables.findPool id <;> rfl

theorem holds_ledgerStake {id : Nat} {Q : Post Stake} :
    Holds (ledgerStake id) s Q ↔ match s.tables.findStake id with
      | some st => Q.ok st s
      | none => Q.refused (.stakeNotFound id) s := by
  unfold ledgerStake
  rw [holds_bind, holds_io]
  show HoldsM (RunState.reading (·.findStake id)) s _ _ ↔ _
  rw [holdsM_reading]
  cases s.tables.findStake id <;> rfl

theorem holds_ledgerUser {id : Nat} {Q : Post User} :
    Holds (ledgerUser id) s Q ↔ match s.tables.findUser id with
      | some u => Q.ok u s
      | none => Q.refused (.userNotFound id) s := by
  unfold ledgerUser
  rw [holds_bind, holds_io]
  show HoldsM (RunState.reading (·.findUser id)) s _ _ ↔ _
  rw [holdsM_reading]
  cases s.tables.findUser id <;> rfl

theorem holds_findUserByAddress {a : String} {Q : Post (Option User)} :
    Holds (io (MonadLedgerStore.findUserByAddress a)) s Q ↔
      Q.ok (s.tables.findUserByAddress a) s := Iff.rfl

theorem holds_saveUser {a : String} {Q : Post (Except StoreError User)} :
    Holds (liftM (MonadLedgerStore.saveUser a : RunM _)) s Q ↔
      Q.ok (s.tables.saveUser a s.clock).1 { s with tables := (s.tables.saveUser a s.clock).2 } :=
  Iff.rfl

theorem holds_poolStakes {id : Nat} {Q : Post (List Stake)} :
    Holds (poolStakes id) s Q ↔ Q.ok (s.tables.stakes.filter (·.poolId == id)) s := Iff.rfl

/-- Writing a pool succeeds exactly when the pool exists. -/
theorem holds_updatePool {p : Pool} {Q : Post Unit} :
    Holds (io (MonadLedgerStore.updatePool p)) s Q ↔ match s.tables.findPool p.id with
      | some _ => Q.ok () { s with tables := (s.tables.updatePool p).2 }
      | none => Q.refused (.storage (.notFound "pool" p.id)) s := by
  rw [holds_io]
  show HoldsM (RunState.writing (·.updatePool p)) s _ _ ↔ _
  rw [holdsM_writing]
  cases h : s.tables.findPool p.id with
  | some q => rw [s.tables.updatePool_of_found h]
  | none =>
    have hw : s.tables.updatePool p = (.error (.notFound "pool" p.id), s.tables) := by
      simp [MemoryTables.updatePool, h]
    rw [hw]

/-- Writing a stake succeeds exactly when the stake exists. -/
theorem holds_updateStake {st : Stake} {Q : Post Unit} :
    Holds (io (MonadLedgerStore.updateStake st)) s Q ↔ match s.tables.findStake st.id with
      | some _ => Q.ok () { s with tables := (s.tables.updateStake st).2 }
      | none => Q.refused (.storage (.notFound "stake" st.id)) s := by
  rw [holds_io]
  show HoldsM (RunState.writing (·.updateStake st)) s _ _ ↔ _
  rw [holdsM_writing]
  cases h : s.tables.findStake st.id with
  | some prev => rw [s.tables.updateStake_of_found h]
  | none =>
    have hw : s.tables.updateStake st = (.error (.notFound "stake" st.id), s.tables) := by
      simp [MemoryTables.updateStake, h]
    rw [hw]

/-- Settling writes the stake and the pool when both exist, and nothing otherwise. -/
theorem holds_settleClaim {st : Stake} {p : Pool} {Q : Post Unit} :
    Holds (io (MonadLedgerStore.settleClaim st p)) s Q ↔
      match s.tables.findStake st.id, s.tables.findPool p.id with
      | some _, some _ => Q.ok () { s with tables := (s.tables.settleClaim st p).2 }
      | none, _ => Q.refused (.storage (.notFound "stake" st.id)) s
      | some _, none => Q.refused (.storage (.notFound "pool" p.id)) s := by
  rw [holds_io]
  show HoldsM (RunState.writing (·.settleClaim st p)) s _ _ ↔ _
  rw [holdsM_writing]
  cases hs : s.tables.findStake st.id with
  | none =>
    have hw : s.tables.settleClaim st p = (.error (.notFound "stake" st.id), s.tables) := by
      simp [MemoryTables.settleClaim, hs]
    rw [hw]
  | some prev =>
    cases hp : s.tables.findPool p.id with
    | some q => rw [s.tables.settleClaim_of_found hs hp]
    | none =>
      have hw : s.tables.settleClaim st p = (.error (.notFound "pool" p.id), s.tables) := by
        simp [MemoryTables.settleClaim, hs, hp]
      rw [hw]

/-- Deleting a pool succeeds exactly when the pool exists. -/
theorem holds_deletePool {id : Nat} {Q : Post Unit} :
    Holds (io (MonadLedgerStore.deletePool id)) s Q ↔ match s.tables.findPool id with
      | some _ => Q.ok () { s with tables := (s.tables.deletePool id).2 }
      | none => Q.refused (.storage (.notFound "pool" id)) s := by
  rw [holds_io]
  show HoldsM (RunState.writing (·.deletePool id)) s _ _ ↔ _
  rw [holdsM_writing]
  cases h : s.tables.findPool id with
  | some q =>
    have hw : (s.tables.deletePool id).1 = .ok () := by simp [MemoryTables.deletePool, h]
    rw [hw]
  | none =>
    have hw : s.tables.deletePool id = (.error (.notFound "pool" id), s.tables) := by
      simp [MemoryTables.deletePool, h]
    rw [hw]

theorem holds_savePool {p : Pool} {Q : Post Pool} :
    Holds (io (MonadLedgerStore.savePool p)) s Q ↔
      Q.ok (s.tables.savePool p).1 { s with tables := (s.tables.savePool p).2 } := Iff.rfl

theorem holds_saveStake {st : Stake} {Q : Post Stake} :
    Holds (io (MonadLedgerStore.saveStake st)) s Q ↔
      Q.ok (s.tables.saveStake st).1 { s with tables := (s.tables.saveStake st).2 } := Iff.rfl

theorem holds_listActiveStakes {Q : Post (List Stake)} :
    Holds (io MonadLedgerStore.listActiveStakes) s Q ↔ Q.ok s.tables.activeStakes s := Iff.rfl

/-- An operation record is always appended here; the record itself is never read back. -/
theorem holds_recordOperation {k : OperationKind} {u : Nat} {d : String} {Q : Post Unit} :
    Holds (recordOperation k u d : LedgerT RunM Unit) s Q ↔
      Q.ok () { s with tables := (s.tables.appendOperation k u d s.clock).2 } := Iff.rfl

end Store

/-! ## Calls to the collaborators -/

section Outside

variable {s : RunState}

@[simp] theorem RunState.sendNext_tables (r : TransferRequest) :
    (s.sendNext r).2.tables = s.tables := rfl

/-- An accepted transfer is kept. -/
theorem RunState.sendNext_transfers_ok {r : TransferRequest} {h : String}
    (hs : (s.sendNext r).1 = some (.ok h)) : (s.sendNext r).2.transfers = s.transfers ++ [r] := by
  unfold RunState.sendNext at hs ⊢
  simp only at hs ⊢
  simp [hs, Except.toOption]

/-- A transfer that timed out or failed is not. -/
theorem RunState.sendNext_transfers_failed {r : TransferRequest}
    (hs : ∀ h, (s.sendNext r).1 ≠ some (.ok h)) : (s.sendNext r).2.transfers = s.transfers := by
  unfold RunState.sendNext at hs ⊢
  simp only at hs ⊢
  cases ha : s.outside.send s.sends r with
  | none => simp
  | some a =>
    cases a with
    | error e => simp [Except.toOption]
    | ok h => exact absurd ha (hs h)

/-- A call under a deadline: no answer is a timeout, a failure is wrapped. -/
theorem holds_bounded {α ε : Type} {what : String} {wrap : ε → LedgerError}
    {call : RunM (Option (Except ε α))} {Q : Post α} :
    Holds (bounded what wrap call) s Q ↔ HoldsM call s (fun r s' => match r with
      | none => Q.refused (.timeout what) s'
      | some (.ok a) => Q.ok a s'
      | some (.error e) => Q.refused (wrap e) s') Q.overflow := by
  unfold bounded
  rw [holds_bind, holds_liftM]
  unfold HoldsM
  rcases call.run.run s with ⟨o | r, s'⟩
  · rfl
  · rcases r with _ | e | a <;> rfl

theorem holdsM_send {limit : Nat} {r : TransferRequest} {ok} {ov} :
    HoldsM (MonadTransfers.send limit r : RunM _) s ok ov ↔
      ok (s.sendNext r).1 (s.sendNext r).2 := Iff.rfl

theorem holdsM_usdPrice {limit : Nat} {token : String} {ok} {ov} :
    HoldsM (MonadPriceOracle.usdPrice limit token : RunM _) s ok ov ↔
      ok (s.outside.price s.lookups token) { s with lookups := s.lookups + 1 } := Iff.rfl

/-- A transfer is sent once; whatever the executor answers is the outcome. -/
theorem holds_transferOut {limits : CallLimits} {pool : Pool} {dest : String} {amount : Decimal}
    {comment : String} {Q : Post String} :
    Holds (transferOut limits pool dest amount comment) s Q ↔
      let r : TransferRequest := ⟨pool.tokenMaster, dest, amount, limits.decimals, comment⟩
      match (s.sendNext r).1 with
      | none => Q.refused (.timeout "transfer") (s.sendNext r).2
      | some (.ok h) => Q.ok h (s.sendNext r).2
      | some (.error e) => Q.refused (.transfer e) (s.sendNext r).2 := by
  unfold transferOut
  rw [holds_tryCatch, holds_bounded, holdsM_send]
  dsimp only
  rcases (s.sendNext _).1 with _ | e | h <;> simp only [holds_bind, holds_logAt, holds_throw]

end Outside

end PoolTreasury
