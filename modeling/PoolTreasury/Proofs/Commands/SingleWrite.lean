import PoolTreasury.Proofs.Commands.FailingStore
import PoolTreasury.Proofs.Store.Lookup

/-! # Each ledger operation writes once, after its last refusal

A ledger operation reads, checks, and then makes its one write to a pool or a stake; what
follows the write is a log line and an operation record whose failure is only logged. So every
refusal, whether a failed check, a failed store call or an arithmetic overflow, comes before
the write and leaves nothing behind, and an operation that has written succeeds. This is what
makes it safe for the processor to retry a refused request.

The steps are described by frames over the world: `Quiet` (nothing accepted, the users and the
cursor as they were), `WritesOnce` (at most one write to pools or stakes, no one registered)
and `Registers` (at most the one registration of a new address). Each operation is proved to
end in `Post.ledgerStep`: a `WritesOnce` step when it succeeds, a `Quiet` one otherwise.
-/

namespace PoolTreasury

namespace MemoryTables

variable (t : MemoryTables)

@[simp] theorem byAddress_updatePool (p : Pool) : (t.updatePool p).2.byAddress = t.byAddress := by
  unfold updatePool
  split <;> rfl

@[simp] theorem byAddress_savePool (p : Pool) : (t.savePool p).2.byAddress = t.byAddress := rfl

@[simp] theorem byAddress_saveStake (st : Stake) : (t.saveStake st).2.byAddress = t.byAddress := rfl

variable {a : String} {now : Instant}

/-- A user is saved only under an address no one has, and the address is then taken. -/
theorem saveUser_of_ok {u : User} (h : (t.saveUser a now).1 = .ok u) :
    t.byAddress.any (·.1 == a) = false ∧ (t.saveUser a now).2.byAddress.any (·.1 == a) = true := by
  unfold saveUser at h ⊢
  split at h
  · cases h
  · rename_i hfresh
    rw [if_neg hfresh]
    simp [hfresh, allocate]

end MemoryTables

namespace CmdWorld

/-! ## Frames -/

/-- A step that has the store accept nothing and leaves the users and the cursor. -/
structure Quiet (w w' : CmdWorld) : Prop where
  byAddress : w'.tables.byAddress = w.tables.byAddress
  trail : w'.trail = w.trail
  cursor : w'.cursor = w.cursor

/-- A step of a ledger operation: the users and the cursor as they were, no address registered,
and at most one more write to pools or stakes. -/
structure WritesOnce (w w' : CmdWorld) : Prop where
  byAddress : w'.tables.byAddress = w.tables.byAddress
  registered : w'.registered = w.registered
  cursor : w'.cursor = w.cursor
  ledgerWrites : w'.ledgerWrites ≤ w.ledgerWrites + 1

/-- What registering `a` may do: nothing, or register `a` when no one had that address. -/
inductive Registers (a : String) (w w' : CmdWorld) : Prop
  | known : w.Quiet w' → Registers a w w'
  | new : ¬ w.HasUser a → w'.HasUser a → w'.trail = w.trail ++ [.user a] →
      w'.cursor = w.cursor → Registers a w w'

/-- `w'` is `w` with one more accepted write `x`, the users and the cursor as they were. -/
structure Appends (w w' : CmdWorld) (x : StoreWrite) : Prop where
  byAddress : w'.tables.byAddress = w.tables.byAddress
  cursor : w'.cursor = w.cursor
  trail : w'.trail = w.trail ++ [x]

variable {w w₁ w' : CmdWorld}

theorem Quiet.refl (w : CmdWorld) : w.Quiet w := ⟨rfl, rfl, rfl⟩

theorem Quiet.trans (h : w.Quiet w₁) (h' : w₁.Quiet w') : w.Quiet w' :=
  ⟨h'.byAddress.trans h.byAddress, h'.trail.trans h.trail, h'.cursor.trans h.cursor⟩

theorem quiet_bumped (w : CmdWorld) : w.Quiet w.bumped := ⟨rfl, rfl, rfl⟩

/-- What the trail gaining `ws` adds to the counts. -/
theorem ledgerWrites_of_trail {ws : List StoreWrite} (h : w'.trail = w.trail ++ ws) :
    w'.ledgerWrites = w.ledgerWrites + ws.countP StoreWrite.changesLedger := by
  rw [CmdWorld.ledgerWrites, CmdWorld.ledgerWrites, h, List.countP_append]

theorem registered_of_trail {ws : List StoreWrite} (h : w'.trail = w.trail ++ ws) :
    w'.registered = w.registered ++ ws.filterMap StoreWrite.registration := by
  rw [CmdWorld.registered, CmdWorld.registered, h, List.filterMap_append]

theorem Quiet.ledgerWrites (h : w.Quiet w') : w'.ledgerWrites = w.ledgerWrites := by
  rw [CmdWorld.ledgerWrites, CmdWorld.ledgerWrites, h.trail]

theorem Quiet.registered (h : w.Quiet w') : w'.registered = w.registered := by
  rw [CmdWorld.registered, CmdWorld.registered, h.trail]

theorem Quiet.writesOnce (h : w.Quiet w') : w.WritesOnce w' :=
  ⟨h.byAddress, h.registered, h.cursor, h.ledgerWrites ▸ Nat.le_succ _⟩

theorem Quiet.trans_writesOnce (h : w.Quiet w₁) (h' : w₁.WritesOnce w') : w.WritesOnce w' :=
  ⟨h'.byAddress.trans h.byAddress, h'.registered.trans h.registered, h'.cursor.trans h.cursor,
    h.ledgerWrites ▸ h'.ledgerWrites⟩

theorem WritesOnce.trans_quiet (h : w.WritesOnce w₁) (h' : w₁.Quiet w') : w.WritesOnce w' :=
  ⟨h'.byAddress.trans h.byAddress, h'.registered.trans h.registered, h'.cursor.trans h.cursor,
    h'.ledgerWrites ▸ h.ledgerWrites⟩

theorem Appends.writesOnce {x : StoreWrite} (h : w.Appends w' x) (hx : x.registration = none) :
    w.WritesOnce w' := by
  have hcount := ledgerWrites_of_trail h.trail
  refine ⟨h.byAddress, by simp [registered_of_trail h.trail, hx], h.cursor, ?_⟩
  rw [hcount, List.countP_singleton]
  split <;> omega

theorem Registers.of_quiet {a : String} (h : w₁.Registers a w') (hq : w.Quiet w₁) :
    w.Registers a w' := by
  cases h with
  | known h => exact .known (hq.trans h)
  | new hfresh htaken htrail hcursor =>
    refine .new ?_ htaken (by rw [htrail, hq.trail]) (hcursor.trans hq.cursor)
    rwa [CmdWorld.HasUser, ← hq.byAddress]

theorem ledgerWrites_of_append {x : StoreWrite} (h : w'.trail = w.trail ++ [x])
    (hx : x.changesLedger = false) : w'.ledgerWrites = w.ledgerWrites := by
  simp [ledgerWrites_of_trail h, hx]

theorem registered_of_append {x : StoreWrite} (h : w'.trail = w.trail ++ [x])
    (hx : x.registration = none) : w'.registered = w.registered := by
  simp [registered_of_trail h, hx]

/-- A record that neither changes the ledger nor registers anyone keeps a step of one write. -/
theorem WritesOnce.appends {x : StoreWrite} (h : w.WritesOnce w₁) (h' : w₁.Appends w' x)
    (hx : x.changesLedger = false) (hr : x.registration = none) : w.WritesOnce w' :=
  ⟨h'.byAddress.trans h.byAddress, (registered_of_append h'.trail hr).trans h.registered,
    h'.cursor.trans h.cursor, (ledgerWrites_of_append h'.trail hx) ▸ h.ledgerWrites⟩

theorem Registers.ledgerWrites {a : String} (h : w.Registers a w') :
    w'.ledgerWrites = w.ledgerWrites := by
  cases h with
  | known h => exact h.ledgerWrites
  | new _ _ htrail _ => exact ledgerWrites_of_append htrail rfl

theorem Registers.cursor {a : String} (h : w.Registers a w') : w'.cursor = w.cursor := by
  cases h with
  | known h => exact h.cursor
  | new _ _ _ hcursor => exact hcursor

theorem Registers.trans_quiet {a : String} (h : w.Registers a w₁) (h' : w₁.Quiet w') :
    w.Registers a w' := by
  cases h with
  | known h => exact .known (h.trans h')
  | new hfresh htaken htrail hcursor =>
    refine .new hfresh ?_ (by rw [h'.trail, htrail]) (h'.cursor.trans hcursor)
    rwa [CmdWorld.HasUser, h'.byAddress]

/-! ## Requirements of a step -/

/-- `Q` accepts every failure that has written nothing since `w₀`. -/
structure Post.QuietFails {α : Type} (Q : Post α) (w₀ : CmdWorld) : Prop where
  refused : ∀ e w', w₀.Quiet w' → Q.refused e w'
  overflow : ∀ o w', w₀.Quiet w' → Q.overflow o w'

/-- A ledger operation: its refusals and overflows write nothing, its success at most one write
to pools or stakes. -/
def Post.ledgerStep {α : Type} (w₀ : CmdWorld) : Post α :=
  ⟨fun _ w' => w₀.WritesOnce w', fun _ w' => w₀.Quiet w', fun _ w' => w₀.Quiet w'⟩

theorem Post.QuietFails.always {α : Type} (w₀ : CmdWorld) :
    (Post.always w₀.Quiet : Post α).QuietFails w₀ :=
  ⟨fun _ _ h => h, fun _ _ h => h⟩

theorem Post.QuietFails.ledgerStep {α : Type} (w₀ : CmdWorld) :
    (Post.ledgerStep w₀ : Post α).QuietFails w₀ :=
  ⟨fun _ _ h => h, fun _ _ h => h⟩

end CmdWorld

/-! ## Reads and writes -/

section Steps

variable {β γ : Type} {w w₀ : CmdWorld} {Q : CmdWorld.Post β}

/-- A computation that writes nothing, in a step that has written nothing since `w₀`. -/
theorem runs_bind_quiet {x : LedgerT CmdM γ} {k : γ → LedgerT CmdM β}
    (hx : Runs x w (.always w.Quiet)) (hQ : Q.QuietFails w₀) (hq : w₀.Quiet w)
    (hk : ∀ a w', w₀.Quiet w' → Runs (k a) w' Q) : Runs (x >>= k) w Q := by
  rw [runs_bind]
  exact hx.mono (fun a w' h => hk a w' (hq.trans h)) (fun e w' h => hQ.refused e w' (hq.trans h))
    (fun o w' h => hQ.overflow o w' (hq.trans h))

theorem read_quiet {f : MemoryTables → γ} : Runs (io (CmdWorld.storeRead f)) w (.always w.Quiet) := by
  rw [runs_read]
  split <;> exact w.quiet_bumped

theorem checked_quiet {r : Except Overflow γ} : Runs (checked r) w (.always w.Quiet) := by
  rw [runs_checked]
  split <;> exact .refl w

/-- An operation record is appended or, when the store refuses it, only logged; either way the
step goes on. -/
theorem recordOperation_noted (k : OperationKind) (u : Nat) (d : String) :
    Runs (recordOperation k u d : LedgerT CmdM Unit) w
      ⟨fun _ w' => w.Quiet w' ∨ w.Appends w' (.operation k), fun _ _ => False, fun _ _ => False⟩ := by
  unfold recordOperation
  rw [runs_bind]
  show Runs (liftM (get >>= fun s => CmdWorld.storeCall _ _)) w _
  rw [runs_liftM, goes_bind, goes_get, goes_call]
  cases h : w.storeFault w.storeCalls with
  | some e =>
    simp only [CmdWorld.call, h]
    exact .inl w.quiet_bumped
  | none =>
    simp only [CmdWorld.call, h]
    exact .inr ⟨rfl, rfl, rfl⟩

/-- The one write of a step, after checks that wrote nothing: refused, it leaves nothing;
accepted, it is the step's write, and the rest of the step runs from there. -/
theorem runs_write_then {effect : MemoryTables → Except StoreError γ × MemoryTables}
    {x : γ → StoreWrite} {f : γ → LedgerT CmdM β}
    (hkeep : ∀ t, (effect t).2.byAddress = t.byAddress) (hx : ∀ a, (x a).registration = none)
    (hq : w₀.Quiet w) (hrest : ∀ a w', w₀.WritesOnce w' → Runs (f a) w' (.ledgerStep w₀)) :
    Runs (io (CmdWorld.storeCall effect fun a => [x a]) >>= f) w (.ledgerStep w₀) := by
  rw [runs_bind, runs_storeCall]
  split
  · exact hq.trans w.quiet_bumped
  · split
    · rename_i a _
      exact hrest a _ (hq.trans_writesOnce (CmdWorld.Appends.writesOnce ⟨hkeep _, rfl, rfl⟩ (hx a)))
    · exact hq.trans ⟨hkeep _, rfl, rfl⟩

/-- What follows the write: its operation record, and the answer. -/
theorem runs_recorded {k : OperationKind} {u : Nat} {d : String} {a : β} (h : w₀.WritesOnce w) :
    Runs (do recordOperation k u d; pure a : LedgerT CmdM β) w (.ledgerStep w₀) := by
  rw [runs_bind]
  refine (recordOperation_noted k u d).mono ?_ (fun _ _ h => h.elim) (fun _ _ h => h.elim)
  rintro _ w' (hquiet | happ)
  · exact h.trans_quiet hquiet
  · exact h.appends happ rfl rfl

end Steps

/-! ## Lookups -/

section Lookups

variable {w : CmdWorld}

theorem ledgerPool_quiet (id : Nat) : Runs (ledgerPool id) w (.always w.Quiet) := by
  unfold ledgerPool
  refine runs_bind_quiet read_quiet (.always w) (.refl w) fun p w' h => ?_
  split
  · exact h
  · exact h

theorem ledgerUser_quiet (id : Nat) : Runs (ledgerUser id) w (.always w.Quiet) := by
  unfold ledgerUser
  refine runs_bind_quiet read_quiet (.always w) (.refl w) fun u w' h => ?_
  split
  · exact h
  · exact h

theorem refreshTempReserve_quiet (p : Pool) : Runs (refreshTempReserve p) w (.always w.Quiet) := by
  unfold refreshTempReserve poolStakes
  refine runs_bind_quiet read_quiet (.always w) (.refl w) fun stakes w₁ h₁ => ?_
  exact runs_bind_quiet checked_quiet (.always w) h₁ fun _ _ h₂ => h₂

end Lookups

/-! ## Registering a sender -/

section Registration

variable {w : CmdWorld}

theorem saveUser_registers (a : String) :
    Goes (MonadLedgerStore.saveUser a : CmdM _) w (fun r w' => match r with
      | .ok _ => w.Registers a w'
      | .error _ => w.Quiet w') (fun _ _ => False) := by
  show Goes (get >>= fun s => CmdWorld.storeCall _ _) w _ _
  rw [goes_bind, goes_get, goes_storeCall]
  split
  · exact w.quiet_bumped
  split
  · rename_i u hs
    obtain ⟨hfresh, htaken⟩ := w.tables.saveUser_of_ok hs
    exact .new (by simp [CmdWorld.HasUser, hfresh]) htaken rfl rfl
  · rename_i e hs
    have ht := w.tables.saveUser_of_error hs
    exact ⟨by rw [ht], rfl, rfl⟩

/-- Registering a sender writes nothing but, for an address no one had, its registration; a
refusal writes nothing at all. -/
theorem registerUser_writesRegistration (a : String) :
    Runs (registerUser a) w
      ⟨fun _ w' => w.Registers a w', fun _ w' => w.Quiet w', fun _ w' => w.Quiet w'⟩ := by
  unfold registerUser
  split
  · rw [runs_throw_bind]
    exact .refl w
  dsimp only
  refine runs_bind_quiet read_quiet ⟨fun _ _ h => h, fun _ _ h => h⟩ (.refl w) fun found w₁ h₁ => ?_
  split
  · exact .known h₁
  rw [runs_bind, runs_liftM]
  refine (saveUser_registers a).mono ?_ (fun _ _ h => h.elim)
  intro r w₂ h₂
  dsimp only
  split
  · rw [runs_logAt_bind]
    exact h₂.of_quiet h₁
  -- taken since it was looked up: the address is looked up once more
  · refine runs_bind_quiet read_quiet ⟨fun _ _ h => h, fun _ _ h => h⟩ (h₁.trans h₂)
      fun found w₃ h₃ => ?_
    split
    · exact .known h₃
    · exact h₃
  · exact h₁.trans h₂

end Registration

/-! ## The ledger operations -/

section Operations

variable {w : CmdWorld}

theorem addReserve_writesOnce (id : Nat) (amount : Decimal) :
    Runs (addReserve id amount) w (.ledgerStep w) := by
  unfold addReserve
  split
  · exact .refl w
  · dsimp only
    refine runs_bind_quiet (ledgerPool_quiet id) (.ledgerStep w) (.refl w) fun p w₁ h₁ => ?_
    refine runs_bind_quiet checked_quiet (.ledgerStep w) h₁ fun _ w₂ h₂ => ?_
    refine runs_bind_quiet (refreshTempReserve_quiet _) (.ledgerStep w) h₂ fun p w₃ h₃ => ?_
    refine runs_write_then (by simp) (fun _ => rfl) h₃ fun _ w₄ h₄ => ?_
    rw [runs_logAt_bind]
    exact runs_recorded h₄

theorem payCommission_writesOnce (id : Nat) (amount required : Decimal) :
    Runs (payCommission id amount required) w (.ledgerStep w) := by
  unfold payCommission
  refine runs_bind_quiet (ledgerPool_quiet id) (.ledgerStep w) (.refl w) fun p w₁ h₁ => ?_
  split
  -- paid already: the pool is answered as it is
  · rw [runs_logAt_bind]
    exact h₁.writesOnce
  · dsimp only
    split
    · exact h₁
    · refine runs_write_then (by simp) (fun _ => rfl) h₁ fun _ w₂ h₂ => ?_
      rw [runs_logAt_bind]
      exact runs_recorded h₂

theorem createPool_writesOnce (params : NewPool) : Runs (createPool params) w (.ledgerStep w) := by
  unfold createPool
  split
  · exact .refl w
  · dsimp only
    refine runs_bind_quiet (ledgerUser_quiet _) (.ledgerStep w) (.refl w) fun _ w₁ h₁ => ?_
    rw [runs_bind, runs_now]
    refine runs_write_then (by simp) (fun _ => rfl) h₁ fun _ w₂ h₂ => ?_
    rw [runs_logAt_bind]
    exact runs_recorded h₂

theorem createStake_writesOnce (userId poolId : Nat) (amount price : Decimal) :
    Runs (createStake userId poolId amount price) w (.ledgerStep w) := by
  unfold createStake
  dsimp only
  split
  · rw [runs_throw_bind]
    exact .refl w
  split
  · rw [runs_throw_bind]
    exact .refl w
  refine runs_bind_quiet (ledgerUser_quiet _) (.ledgerStep w) (.refl w) fun _ w₁ h₁ => ?_
  refine runs_bind_quiet (ledgerPool_quiet _) (.ledgerStep w) h₁ fun p w₂ h₂ => ?_
  split
  · rw [runs_throw_bind]
    exact h₂
  refine runs_bind_quiet read_quiet (.ledgerStep w) h₂ fun _ w₃ h₃ => ?_
  refine runs_bind_quiet checked_quiet (.ledgerStep w) h₃ fun _ w₄ h₄ => ?_
  refine runs_bind_quiet checked_quiet (.ledgerStep w) h₄ fun _ w₅ h₅ => ?_
  split
  -- over capacity: the room left is computed for the refusal
  · refine runs_bind_quiet checked_quiet (.ledgerStep w) h₅ fun _ w₆ h₆ => ?_
    rw [runs_logAt_bind, runs_throw_bind]
    exact h₆
  · rw [runs_bind, runs_now]
    refine runs_bind_quiet checked_quiet (.ledgerStep w) h₅ fun _ w₆ h₆ => ?_
    refine runs_write_then (by simp) (fun _ => rfl) h₆ fun _ w₇ h₇ => ?_
    rw [runs_logAt_bind]
    exact runs_recorded h₇

end Operations

end PoolTreasury
