import PoolTreasury.Proofs.Run.State
import PoolTreasury.Treasury.Commands

/-! # The command processor against a failing store

The processor runs against the in-memory store, the collaborators of `Outside`, and the
ingestion cursor. Any store call may fail: the `k`-th call answers `storeFault k` when that is
an error, before it has any effect, and otherwise does what the in-memory store does. The
oracle's and the executor's answers are arbitrary, call by call, as in `RunState`.

The world keeps the writes the store accepted, in order. Nothing in the processor reads them:
they are what a run is judged by. Log events reach no one, and the clock does not move while
the processor waits between attempts.
-/

namespace PoolTreasury

/-- A write the store accepted. -/
inductive StoreWrite where
  | user (address : String)
  | pool (p : Pool)
  | poolDeleted (id : Nat)
  | stake (st : Stake)
  | claimSettled (st : Stake) (p : Pool)
  | operation (kind : OperationKind)
  | cursor (lt : Nat)
deriving DecidableEq, Repr

/-- The writes that change a pool or a stake. -/
def StoreWrite.changesLedger : StoreWrite → Bool
  | .pool _ | .poolDeleted _ | .stake _ | .claimSettled _ _ => true
  | .user _ | .operation _ | .cursor _ => false

/-- The address a write registers, if it registers one. -/
def StoreWrite.registration : StoreWrite → Option String
  | .user a => some a
  | _ => none

structure CmdWorld where
  tables : MemoryTables
  clock : Instant
  outside : Outside
  /-- The store's answer to its `k`-th call: an error fails the call before it has any
  effect. -/
  storeFault : Nat → Option StoreError
  /-- Store calls so far. -/
  storeCalls : Nat
  /-- Oracle lookups so far. -/
  lookups : Nat
  /-- Sends so far. -/
  sends : Nat
  cursor : CursorState
  /-- The writes the store accepted, in order. -/
  trail : List StoreWrite

namespace CmdWorld

/-- Writes to pools and stakes accepted so far. -/
def ledgerWrites (w : CmdWorld) : Nat := w.trail.countP StoreWrite.changesLedger

/-- The addresses registered so far, in order. -/
def registered (w : CmdWorld) : List String := w.trail.filterMap StoreWrite.registration

/-- The address has a user in the store. -/
def HasUser (w : CmdWorld) (a : String) : Prop := w.tables.byAddress.any (·.1 == a) = true

end CmdWorld

/-- A computation of the processor; an overflow aborts it. -/
abbrev CmdM := ExceptT Overflow (StateM CmdWorld)

namespace CmdWorld

/-- One store call: the fault it is given, or the in-memory store's `effect`, with the
writes `record` names for an accepted answer. -/
def call {α : Type} (effect : MemoryTables → Except StoreError α × MemoryTables)
    (record : α → List StoreWrite) (w : CmdWorld) : Except StoreError α × CmdWorld :=
  match w.storeFault w.storeCalls with
  | some e => (.error e, { w with storeCalls := w.storeCalls + 1 })
  | none =>
    let (r, t) := effect w.tables
    let written := match r with
      | .ok a => record a
      | .error _ => []
    (r, { w with tables := t, storeCalls := w.storeCalls + 1, trail := w.trail ++ written })

/-- A store call as the processor makes it. -/
def storeCall {α : Type} (effect : MemoryTables → Except StoreError α × MemoryTables)
    (record : α → List StoreWrite) : CmdM (Except StoreError α) :=
  modifyGet (call effect record)

/-- A store call that only reads. -/
def storeRead {α : Type} (f : MemoryTables → α) : CmdM (Except StoreError α) :=
  storeCall (fun t => (.ok (f t), t)) fun _ => []

/-- The world after one more store call that had no effect. -/
def bumped (w : CmdWorld) : CmdWorld := { w with storeCalls := w.storeCalls + 1 }

theorem call_read {α : Type} (w : CmdWorld) (f : MemoryTables → α) :
    w.call (fun t => (.ok (f t), t)) (fun _ => []) =
      ((match w.storeFault w.storeCalls with
        | some e => .error e
        | none => .ok (f w.tables)), w.bumped) := by
  cases h : w.storeFault w.storeCalls <;> simp [call, h, bumped]

end CmdWorld

instance : MonadLog CmdM where
  emit _ := pure ()

instance : MonadClock CmdM where
  now := do pure (← get).clock
  sleep _ := pure ()

open CmdWorld in
instance : MonadLedgerStore CmdM where
  saveUser a := do
    let now := (← get).clock
    storeCall (·.saveUser a now) fun _ => [.user a]
  findUser id := storeRead (·.findUser id)
  findUserByAddress a := storeRead (·.findUserByAddress a)
  savePool p := storeCall (fun t => let (p, t) := t.savePool p; (.ok p, t)) fun p => [.pool p]
  updatePool p := storeCall (·.updatePool p) fun _ => [.pool p]
  findPool id := storeRead (·.findPool id)
  deletePool id := storeCall (·.deletePool id) fun _ => [.poolDeleted id]
  listPools page := storeRead fun t => page.apply t.pools
  listPoolsByOwner o page := storeRead fun t => page.apply (t.pools.filter (·.ownerId == o))
  countPools := storeRead (·.pools.length)
  saveStake st := storeCall (fun t => let (st, t) := t.saveStake st; (.ok st, t)) fun st => [.stake st]
  updateStake st := storeCall (·.updateStake st) fun _ => [.stake st]
  findStake id := storeRead (·.findStake id)
  listStakesByPool p := storeRead fun t => t.stakes.filter (·.poolId == p)
  listStakesByUser u page := storeRead fun t => page.apply (t.stakes.filter (·.userId == u))
  listActiveStakes := storeRead (·.activeStakes)
  countStakes := storeRead (·.stakes.length)
  settleClaim st p := storeCall (·.settleClaim st p) fun _ => [.claimSettled st p]
  appendOperation k u d := do
    let now := (← get).clock
    storeCall (fun t => let (o, t) := t.appendOperation k u d now; (.ok o, t)) fun _ => [.operation k]
  listOperationsByUser u page :=
    storeRead fun t => page.apply (t.operations.filter (·.userId == u))
  saveCursor lt := storeCall (fun t => (.ok (), { t with cursor := some lt })) fun _ => [.cursor lt]
  loadCursor := storeRead (·.cursor)

instance : MonadPriceOracle CmdM where
  usdPrice _ token := modifyGet fun w =>
    (w.outside.price w.lookups token, { w with lookups := w.lookups + 1 })

instance : MonadTransfers CmdM where
  send _ r := modifyGet fun w => (w.outside.send w.sends r, { w with sends := w.sends + 1 })
  resolveTokenWallet _ token owner := do pure ((← get).outside.tokenWallet token owner)

instance : MonadCursor CmdM where
  cursorState := do pure (← get).cursor
  setCursorState c := modify fun w => { w with cursor := c }
  persistCursor lt := MonadLedgerStore.saveCursor lt

/-! ## What a computation ends in -/

namespace CmdWorld

/-- What may be asked of each outcome of a computation. -/
structure Post (α : Type) where
  ok : α → CmdWorld → Prop
  refused : LedgerError → CmdWorld → Prop
  overflow : Overflow → CmdWorld → Prop

/-- The same requirement of the world after every outcome. -/
@[reducible] def Post.always {α : Type} (P : CmdWorld → Prop) : Post α := ⟨fun _ => P, fun _ => P, fun _ => P⟩

end CmdWorld

/-- The outcome of `x` run from `w` satisfies `Q`. -/
def Runs {α : Type} (x : LedgerT CmdM α) (w : CmdWorld) (Q : CmdWorld.Post α) : Prop :=
  match x.run.run.run w with
  | (.ok (.ok a), w') => Q.ok a w'
  | (.ok (.error e), w') => Q.refused e w'
  | (.error o, w') => Q.overflow o w'

/-- The same for a computation the ledger cannot refuse. -/
def Goes {α : Type} (x : CmdM α) (w : CmdWorld) (ok : α → CmdWorld → Prop)
    (overflow : Overflow → CmdWorld → Prop) : Prop :=
  match x.run.run w with
  | (.ok a, w') => ok a w'
  | (.error o, w') => overflow o w'

section Combinators

variable {α β : Type} {w : CmdWorld} {Q : CmdWorld.Post β}

theorem runs_bind {x : LedgerT CmdM α} {f : α → LedgerT CmdM β} :
    Runs (x >>= f) w Q ↔ Runs x w ⟨fun a w' => Runs (f a) w' Q, Q.refused, Q.overflow⟩ := by
  unfold Runs
  simp only [ExceptT.run_bind]
  rcases h : x.run.run.run w with ⟨r, w'⟩
  rw [StateT.run_bind, h]
  rcases r with o | e | a <;> rfl

theorem runs_pure {a : β} : Runs (pure a) w Q ↔ Q.ok a w := Iff.rfl

theorem runs_throw {e : LedgerError} : Runs (throw e : LedgerT CmdM β) w Q ↔ Q.refused e w :=
  Iff.rfl

theorem runs_throw_bind {e : LedgerError} {k : α → LedgerT CmdM β} :
    Runs (throw e >>= k) w Q ↔ Q.refused e w :=
  Iff.rfl

theorem Runs.mono {x : LedgerT CmdM β} {Q' : CmdWorld.Post β} (h : Runs x w Q)
    (hok : ∀ a w', Q.ok a w' → Q'.ok a w') (hrefused : ∀ e w', Q.refused e w' → Q'.refused e w')
    (hoverflow : ∀ o w', Q.overflow o w' → Q'.overflow o w') : Runs x w Q' := by
  unfold Runs at h ⊢
  split at h
  · exact hok _ _ h
  · exact hrefused _ _ h
  · exact hoverflow _ _ h

theorem runs_liftM {x : CmdM β} : Runs (liftM x) w Q ↔ Goes x w Q.ok Q.overflow := by
  unfold Runs Goes
  simp only [liftM, monadLift, MonadLift.monadLift, ExceptT.run_lift, ExceptT.run_map,
    StateT.run_map]
  rcases x.run.run w with ⟨o | a, w'⟩ <;> rfl

theorem runs_checked {r : Except Overflow β} :
    Runs (checked r) w Q ↔ match r with
      | .ok a => Q.ok a w
      | .error o => Q.overflow o w := by
  cases r <;> rfl

theorem goes_bind {x : CmdM α} {f : α → CmdM β} {ok : β → CmdWorld → Prop} {ov} :
    Goes (x >>= f) w ok ov ↔ Goes x w (fun a w' => Goes (f a) w' ok ov) ov := by
  unfold Goes
  simp only [ExceptT.run_bind]
  rcases h : x.run.run w with ⟨r, w'⟩
  rw [StateT.run_bind, h]
  rcases r with o | a <;> rfl

theorem goes_pure {a : β} {ok : β → CmdWorld → Prop} {ov} : Goes (pure a) w ok ov ↔ ok a w :=
  Iff.rfl

/-- What `Runs` says of the outcome a run actually has. -/
theorem Runs.of_run {x : LedgerT CmdM β} {r : Except Overflow (Except LedgerError β)} {w' : CmdWorld}
    (h : Runs x w Q) (hr : x.run.run.run w = (r, w')) :
    match r with
    | .ok (.ok a) => Q.ok a w'
    | .ok (.error e) => Q.refused e w'
    | .error o => Q.overflow o w' := by
  unfold Runs at h
  rw [hr] at h
  rcases r with o | e | a <;> exact h

theorem goes_of_run {x : CmdM β} {ok : β → CmdWorld → Prop} {ov} {r : Except Overflow β} {w' : CmdWorld} :
    x.run.run w = (r, w') → (Goes x w ok ov ↔ match r with
      | .ok a => ok a w'
      | .error o => ov o w') := by
  intro hr
  unfold Goes
  rw [hr]
  cases r <;> rfl

theorem Goes.mono {x : CmdM β} {ok ok' : β → CmdWorld → Prop} {ov ov' : Overflow → CmdWorld → Prop}
    (h : Goes x w ok ov) (hok : ∀ a w', ok a w' → ok' a w') (hov : ∀ o w', ov o w' → ov' o w') :
    Goes x w ok' ov' := by
  unfold Goes at h ⊢
  split at h
  · exact hok _ _ h
  · exact hov _ _ h

/-- A computation that cannot overflow ends in the world its run leaves. -/
theorem Goes.world {x : CmdM α} {P : CmdWorld → Prop}
    (h : Goes x w (fun _ w' => P w') (fun _ _ => False)) : P (x.run.run w).2 := by
  unfold Goes at h
  rcases hx : x.run.run w with ⟨r, w'⟩
  rw [hx] at h
  cases r with
  | ok a => exact h
  | error o => exact h.elim

end Combinators

section Effects

variable {β : Type} {w : CmdWorld} {Q : CmdWorld.Post β}

/-- A log line goes nowhere: the computation goes on from the same world. -/
theorem runs_logAt_bind {level : LogLevel} {msg : String} {fields : List (String × String)}
    {k : Unit → LedgerT CmdM β} : Runs (logAt level msg fields >>= k) w Q ↔ Runs (k ()) w Q :=
  Iff.rfl

theorem goes_logAt {level : LogLevel} {msg : String} {fields : List (String × String)}
    {ok : Unit → CmdWorld → Prop} {ov} : Goes (logAt level msg fields : CmdM Unit) w ok ov ↔ ok () w :=
  Iff.rfl

theorem runs_now {Q : CmdWorld.Post Instant} : Runs (MonadClock.now : LedgerT CmdM Instant) w Q ↔
    Q.ok w.clock w := Iff.rfl

theorem goes_sleep {ms : Nat} {ok : Unit → CmdWorld → Prop} {ov} :
    Goes (MonadClock.sleep ms : CmdM Unit) w ok ov ↔ ok () w := Iff.rfl

theorem goes_cursorState {ok : CursorState → CmdWorld → Prop} {ov} :
    Goes (MonadCursor.cursorState : CmdM CursorState) w ok ov ↔ ok w.cursor w := Iff.rfl

theorem goes_setCursorState {c : CursorState} {ok : Unit → CmdWorld → Prop} {ov} :
    Goes (MonadCursor.setCursorState c : CmdM Unit) w ok ov ↔ ok () { w with cursor := c } := Iff.rfl

theorem goes_get {ok : CmdWorld → CmdWorld → Prop} {ov} : Goes (get : CmdM CmdWorld) w ok ov ↔ ok w w :=
  Iff.rfl

theorem goes_call {effect : MemoryTables → Except StoreError β × MemoryTables}
    {record : β → List StoreWrite} {ok : Except StoreError β → CmdWorld → Prop} {ov} :
    Goes (CmdWorld.storeCall effect record) w ok ov ↔ ok (w.call effect record).1 (w.call effect record).2 :=
  Iff.rfl

/-- A store call as the ledger makes it: a failure is the ledger's refusal. -/
theorem runs_io {x : CmdM (Except StoreError β)} :
    Runs (io x) w Q ↔ Goes x w (fun r w' => match r with
      | .ok a => Q.ok a w'
      | .error e => Q.refused (.storage e) w') Q.overflow := by
  unfold io
  rw [runs_bind, runs_liftM]
  unfold Goes
  rcases x.run.run w with ⟨o | r, w'⟩
  · rfl
  · rcases r <;> rfl

theorem goes_storeRead {f : MemoryTables → β} {ok : Except StoreError β → CmdWorld → Prop} {ov} :
    Goes (CmdWorld.storeRead f) w ok ov ↔ ok (match w.storeFault w.storeCalls with
      | some e => .error e
      | none => .ok (f w.tables)) w.bumped := by
  unfold CmdWorld.storeRead
  rw [goes_call, w.call_read]

/-- A read refuses the step when the store fails it, and answers from the tables otherwise. -/
theorem runs_read {f : MemoryTables → β} :
    Runs (io (CmdWorld.storeRead f)) w Q ↔ match w.storeFault w.storeCalls with
      | some e => Q.refused (.storage e) w.bumped
      | none => Q.ok (f w.tables) w.bumped := by
  rw [runs_io, goes_storeRead]
  cases w.storeFault w.storeCalls <;> rfl

/-- A store call fails, with no effect, when the store fails it; otherwise it does what the
in-memory store does, and an accepted answer adds its writes to the trail. -/
theorem goes_storeCall {effect : MemoryTables → Except StoreError β × MemoryTables}
    {record : β → List StoreWrite} {ok : Except StoreError β → CmdWorld → Prop} {ov} :
    Goes (CmdWorld.storeCall effect record) w ok ov ↔ match w.storeFault w.storeCalls with
      | some e => ok (.error e) w.bumped
      | none => match (effect w.tables).1 with
        | .ok a => ok (.ok a) { w with tables := (effect w.tables).2, storeCalls := w.storeCalls + 1,
                                       trail := w.trail ++ record a }
        | .error e => ok (.error e)
            { w with tables := (effect w.tables).2, storeCalls := w.storeCalls + 1 } := by
  rw [goes_call]
  unfold CmdWorld.call
  cases w.storeFault w.storeCalls with
  | some e => rfl
  | none =>
    dsimp only
    cases (effect w.tables).1 with
    | ok a => rfl
    | error e => simp only [List.append_nil]

/-- The same for a store call of the ledger: a failure refuses the step. -/
theorem runs_storeCall {effect : MemoryTables → Except StoreError β × MemoryTables}
    {record : β → List StoreWrite} :
    Runs (io (CmdWorld.storeCall effect record)) w Q ↔ match w.storeFault w.storeCalls with
      | some e => Q.refused (.storage e) w.bumped
      | none => match (effect w.tables).1 with
        | .ok a => Q.ok a { w with tables := (effect w.tables).2, storeCalls := w.storeCalls + 1,
                                   trail := w.trail ++ record a }
        | .error e => Q.refused (.storage e)
            { w with tables := (effect w.tables).2, storeCalls := w.storeCalls + 1 } := by
  rw [runs_io, goes_storeCall]

/-- A call under a deadline: no answer is a timeout, a failure is wrapped. -/
theorem runs_bounded {α ε : Type} {what : String} {wrap : ε → LedgerError}
    {call : CmdM (Option (Except ε α))} {Q : CmdWorld.Post α} :
    Runs (bounded what wrap call) w Q ↔ Goes call w (fun r w' => match r with
      | none => Q.refused (.timeout what) w'
      | some (.ok a) => Q.ok a w'
      | some (.error e) => Q.refused (wrap e) w') Q.overflow := by
  unfold bounded
  rw [runs_bind, runs_liftM]
  unfold Goes
  rcases call.run.run w with ⟨o | r, w'⟩
  · rfl
  · rcases r with _ | e | a <;> rfl

theorem goes_usdPrice {limit : Nat} {token : String} {ok} {ov} :
    Goes (MonadPriceOracle.usdPrice limit token : CmdM _) w ok ov ↔
      ok (w.outside.price w.lookups token) { w with lookups := w.lookups + 1 } := Iff.rfl

theorem goes_resolveTokenWallet {limit : Nat} {token owner : String} {ok} {ov} :
    Goes (MonadTransfers.resolveTokenWallet limit token owner : CmdM _) w ok ov ↔
      ok (w.outside.tokenWallet token owner) w := Iff.rfl

end Effects

end PoolTreasury
