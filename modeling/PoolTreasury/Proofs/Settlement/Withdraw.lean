import PoolTreasury.Proofs.Ledger.Capacity
import PoolTreasury.Proofs.Decimal.Range

/-! # Withdrawing a pool's surplus

An owner takes back what the reserve of a closed pool holds beyond what its stakes are still
owed, `L`, the outstanding liability. The withdrawal checks, in order, that the pool exists,
that the requester owns it, that its reserve is above zero, that it is inactive with its
commission paid and that none of its stakes is active (`WithdrawEntry`). It then reckons `L`,
refuses with the shortfall when `L` exceeds the reserve, and refuses again when the reserve
less `L` is zero. Only then does it look up the owner and send the surplus.

The two last refusals together are the condition `L < reserve`: a difference of two decimals
that are not negative is zero exactly when they are equal, whatever digits it rounds away
(`surplus_ne_zero_iff`). The owner lookup never fails from a reachable state, since a pool is
created only for a registered user and users are never removed (`OwnersKnown`). So a transfer
is sent exactly when every check passes (`withdraw_pays_surplus`); what it sends is the
reserve less `L`, and after it the pool holds no reserve and caches `-L`.

Every exit of the withdrawal is listed once, by `withdrawReserve_exits` in
`Proofs/Effects/Settlement`, and the main statement is read off that list.
-/

namespace PoolTreasury

/-! ## Every pool's owner is a registered user -/

namespace MemoryTables

variable {t t' : MemoryTables}

/-- Every pool of the tables is owned by a user the tables hold. -/
def OwnersKnown (t : MemoryTables) : Prop :=
  ∀ k p, t.findPool k = some p → ∃ u, t.findUser p.ownerId = some u

theorem findUser_updatePool (q : Pool) (id : Nat) :
    (t.updatePool q).2.findUser id = t.findUser id := by
  unfold updatePool; split <;> rfl

theorem findUser_deletePool (k id : Nat) : (t.deletePool k).2.findUser id = t.findUser id := by
  unfold deletePool; split <;> rfl

theorem findUser_updateStake (st : Stake) (id : Nat) :
    (t.updateStake st).2.findUser id = t.findUser id := by
  unfold updateStake; split <;> rfl

theorem findUser_settleClaim (st : Stake) (q : Pool) (id : Nat) :
    (t.settleClaim st q).2.findUser id = t.findUser id := by
  unfold settleClaim
  split
  · rfl
  · split <;> rfl

/-- A save of a user keeps every user it found: the new one takes a key of its own. -/
theorem findUser_saveUser_isSome (a : String) (now : Instant) {k : Nat}
    (h : (t.findUser k).isSome) : ((t.saveUser a now).2.findUser k).isSome := by
  unfold saveUser
  split
  · exact h
  · show ((upsertBy (·.id) _ t.users).find? (·.id == k)).isSome
    rw [find?_upsertBy]
    split
    · rfl
    · exact h

/-- Tables whose users are those of owner-known tables, and whose pools are found there with
the same owner, have owners known too. -/
theorem OwnersKnown.of_pools (h : t.OwnersKnown) (husers : ∀ k, t'.findUser k = t.findUser k)
    (hpools : ∀ k p', t'.findPool k = some p' → ∃ p, t.findPool k = some p ∧ p.ownerId = p'.ownerId) :
    t'.OwnersKnown := by
  intro k p' hp'
  obtain ⟨p, hp, howner⟩ := hpools k p' hp'
  rw [husers, ← howner]
  exact h k p hp

theorem Logged.ownersKnown (hl : t.Logged t') (h : t.OwnersKnown) : t'.OwnersKnown :=
  h.of_pools (t.findUser_of_logged hl) fun _ _ hp' => ⟨_, (t.findPool_of_logged hl _).symm.trans hp', rfl⟩

/-- A pool written over one of the same owner. -/
theorem OwnersKnown.updatePool (h : t.OwnersKnown) {q p : Pool} (hq : t.findPool q.id = some p)
    (howner : q.ownerId = p.ownerId) : (t.updatePool q).2.OwnersKnown := by
  refine h.of_pools (findUser_updatePool q) fun k p' hp' => ?_
  rcases t.eq_or_findPool_of_write (findPool_updatePool t hq) hp' with ⟨hid, rfl⟩ | hp'
  · exact ⟨p, hid ▸ hq, howner.symm⟩
  · exact ⟨_, hp', rfl⟩

theorem OwnersKnown.settleClaim (h : t.OwnersKnown) {st prev : Stake} {q p : Pool}
    (hs : t.findStake st.id = some prev) (hq : t.findPool q.id = some p)
    (howner : q.ownerId = p.ownerId) : (t.settleClaim st q).2.OwnersKnown := by
  refine h.of_pools (findUser_settleClaim st q) fun k p' hp' => ?_
  rcases t.eq_or_findPool_of_write (findPool_settleClaim t hs hq) hp' with ⟨hid, rfl⟩ | hp'
  · exact ⟨p, hid ▸ hq, howner.symm⟩
  · exact ⟨_, hp', rfl⟩

/-- A new pool for a registered owner. -/
theorem OwnersKnown.savePool (h : t.OwnersKnown) {q : Pool} {u : User}
    (hu : t.findUser q.ownerId = some u) : (t.savePool q).2.OwnersKnown := by
  intro k p' hp'
  rw [findPool_savePool] at hp'
  split at hp'
  · cases hp'
    exact ⟨u, hu⟩
  · exact h k p' hp'

theorem OwnersKnown.deletePool (h : t.OwnersKnown) {k : Nat} {p : Pool}
    (hp : t.findPool k = some p) : (t.deletePool k).2.OwnersKnown := by
  refine h.of_pools (findUser_deletePool k) fun k' p' hp' => ?_
  rw [findPool_deletePool t hp] at hp'
  split at hp'
  · cases hp'
  · exact ⟨_, hp', rfl⟩

theorem OwnersKnown.saveUser (h : t.OwnersKnown) (a : String) (now : Instant) :
    (t.saveUser a now).2.OwnersKnown := by
  intro k p hp
  rw [findPool_saveUser] at hp
  obtain ⟨u, hu⟩ := h k p hp
  exact Option.isSome_iff_exists.1 (findUser_saveUser_isSome a now (Option.isSome_iff_exists.2 ⟨u, hu⟩))

theorem OwnersKnown.updateStake (h : t.OwnersKnown) (st : Stake) :
    (t.updateStake st).2.OwnersKnown :=
  h.of_pools (findUser_updateStake st) fun _ _ hp' => ⟨_, by rwa [findPool_updateStake] at hp', rfl⟩

theorem OwnersKnown.saveStake (h : t.OwnersKnown) (st : Stake) : (t.saveStake st).2.OwnersKnown :=
  h.of_pools (fun _ => rfl) fun _ _ hp' => ⟨_, hp', rfl⟩

end MemoryTables

open MemoryTables

theorem TickWrite.ownersKnown {now : Instant} {x : Stake} {t t' : MemoryTables}
    (hw : TickWrite now x t t') (h : t.OwnersKnown) : t'.OwnersKnown := by
  cases hw with
  | accrue _ _ _ _ _ | close _ _ _ _ => exact h.updateStake _
  | refresh hp _ => exact h.updatePool (t.findPool_self hp :) rfl
  | note hl => exact hl.ownersKnown h

/-- Every step keeps every pool's owner registered: a pool is created only for a user that is
there, a write over a pool keeps its owner, and no user is removed. -/
theorem OpStep.ownersKnown {op : LedgerOp} {s s' : RunState} {r : Outcome}
    (hs : OpStep op s r s') (h : s.tables.OwnersKnown) : s'.tables.OwnersKnown := by
  cases hs with
  | quiet ht _ | claimSent _ ht _ => exact ht ▸ h
  | registerUser ht _ => exact ht ▸ h.saveUser _ _
  | createPool _ hu hl _ => exact hl.ownersKnown (h.savePool hu)
  | addReserve _ hp _ _ hl _ | payCommission hp _ _ hl _ | setActive hp _ hl _ =>
    exact hl.ownersKnown (h.updatePool (s.tables.findPool_self hp :) rfl)
  | deletePool hp _ _ _ hl _ => exact hl.ownersKnown (h.deletePool hp)
  | createStake _ _ _ _ _ _ _ hl _ => exact hl.ownersKnown (h.saveStake _)
  | tick hr _ => exact hr.invariant (fun _ hw h => hw.ownersKnown h) h
  | claimSettled hc _ _ hl _ =>
    exact hl.ownersKnown (h.settleClaim hc.findStake_paid (s.tables.findPool_self hc.pool :) rfl)
  | withdraw hc hl _ =>
    exact hl.ownersKnown (h.updatePool (s.tables.findPool_self hc.pool :) rfl)

theorem RunState.Reachable.ownersKnown {s : RunState} (h : s.Reachable) : s.tables.OwnersKnown :=
  RunState.Reachable.invariant (I := fun s => s.tables.OwnersKnown) (fun _ _ _ _ hp => by cases hp)
    (fun _ _ _ _ h hs => hs.ownersKnown h) h

/-! ## The surplus of a reserve over its liabilities -/

namespace Decimal

/-- A mantissa above zero, brought into range at a scale a decimal holds, stays above zero:
digits are dropped only while the quotient is at least `2^96`, so the last one dropped leaves
at least a tenth of that. -/
theorem fit?_mantissa_ne_zero {neg : Bool} {n s : Nat} {d : Decimal} (hn : n ≠ 0)
    (hs : s ≤ maxScale) (h : fit? neg n s = some d) : d.mantissa ≠ 0 := by
  obtain ⟨k, -, -, hm, -, -, hmin⟩ := fit?_spec h
  rw [hm]
  cases k with
  | zero => simpa using hn
  | succ j =>
    have hbig := roundDiv_succ_ge n j (hmin j (by omega) (Nat.lt_succ_self j))
    intro hzero
    rw [hzero, mantissaBound] at hbig
    omega

/-- A decimal whose value is zero has a zero mantissa. -/
theorem mantissa_eq_zero_of_value {d : Decimal} (h : d.value = 0) : d.mantissa = 0 := by
  by_contra hne
  rw [value_eq] at h
  split at h <;> simp [hne] at h

/-- The rounding of zero is zero. -/
theorem Rounds.eq_zero {x : ℚ} (h : Rounds 0 x) : x = 0 := by
  obtain ⟨n, s, d, hv, hd, rfl⟩ := h
  have hn : n = 0 := by
    have hpow : (10 : ℚ) ^ s ≠ 0 := by positivity
    rw [div_eq_zero_iff] at hv
    exact_mod_cast hv.resolve_right hpow
  obtain ⟨k, -, -, hm, -, -, -⟩ := fit?_spec hd
  have hzero : d.mantissa = 0 := by simp [hm, hn, roundDiv]
  exact value_of_mantissa_zero hzero

/-- Taking a value that is not negative from a larger one leaves something that is not zero:
the difference is exact at the common scale, a scale a decimal holds. -/
theorem sub?_mantissa_ne_zero {a b c : Decimal} (hb : 0 ≤ b.value) (hlt : b.value < a.value)
    (h : a.sub? b = some c) : c.mantissa ≠ 0 := by
  have ha := hb.trans hlt.le
  unfold sub? combine at h
  split at h
  · rename_i ha0
    rw [value_of_mantissa_zero ha0] at hlt
    exact absurd (hb.trans_lt hlt) (lt_irrefl 0)
  · split at h
    · rename_i ha0 _
      cases h
      exact ha0
    · rename_i ha0 hb0
      have han := negative_of_value_nonneg ha ha0
      have hbn := negative_of_value_nonneg hb hb0
      -- at the common scale the subtrahend's mantissa is below the minuend's
      have hlt' : b.mantissa * 10 ^ (Nat.max a.scale b.scale - b.scale) <
          a.mantissa * 10 ^ (Nat.max a.scale b.scale - a.scale) := by
        have hv := hlt
        rw [value_eq_aligned hbn (Nat.le_max_right a.scale b.scale),
          value_eq_aligned han (Nat.le_max_left a.scale b.scale),
          div_lt_div_iff_of_pos_right (by positivity)] at hv
        exact_mod_cast hv
      simp only [han, hbn, Bool.not_false, if_true, beq_iff_eq, Bool.false_eq_true,
        if_false] at h
      rw [if_pos hlt'.le] at h
      exact fit?_mantissa_ne_zero (by omega) (Nat.max_le.2 ⟨a.scale_le, b.scale_le⟩) h

/-- The surplus of a reserve over liabilities that are not negative and not above it is zero
exactly when the liabilities take the whole reserve. -/
theorem surplus_ne_zero_iff {reserve owed amount : Decimal} (howed : 0 ≤ owed.value)
    (hcovered : ¬ reserve < owed) (h : reserve.sub owed = .ok amount) :
    amount.isZero = false ↔ owed < reserve := by
  have hle : owed.value ≤ reserve.value := le_iff_value_le.mp (not_lt_iff_le.mp hcovered)
  have h' := orOverflow_eq_ok.mp h
  constructor
  · intro hne
    refine lt_iff_value_lt.mpr (lt_of_le_of_ne hle fun heq => ?_)
    -- equal values leave the rounding of zero
    have hr := sub?_rounds howed hle h'
    rw [heq, sub_self] at hr
    simp [isZero, mantissa_eq_zero_of_value hr.eq_zero] at hne
  · intro hlt
    simpa [isZero] using sub?_mantissa_ne_zero howed (lt_iff_value_lt.mp hlt) h'

end Decimal

open Decimal

/-! ## The checks of a withdrawal -/

/-- The entry checks pass with the pool `p`, whose liabilities `owed` are below its reserve. -/
def WithdrawAllowed (t : MemoryTables) (pid requester : Nat) (p : Pool) (owed : Decimal) : Prop :=
  WithdrawEntry t pid requester p ∧ outstandingLiability p (t.stakesOf pid) = .ok owed ∧
    owed < p.reserve

@[simp] theorem Pool.emptied_id (p : Pool) (owed : Decimal) : (p.emptied owed).id = p.id := rfl

section Checks

variable {t : MemoryTables} {pid requester : Nat} {p : Pool} {owed amount : Decimal} {u : User}

namespace WithdrawChecks

/-- Passing the checks leaves liabilities below the reserve: a surplus that is not zero is
never one over equal liabilities. -/
theorem allowed (h : WithdrawChecks t pid requester p owed amount u) :
    WithdrawAllowed t pid requester p owed :=
  ⟨h.entry, h.owed,
    (surplus_ne_zero_iff (outstandingLiability_nonneg h.owed) h.covered h.surplus).mp h.nonzero⟩

end WithdrawChecks

/-- Conversely, liabilities below the reserve leave a surplus that is computed and not zero,
and a pool's owner is found where owners are known: every check passes. -/
theorem WithdrawAllowed.checks (h : WithdrawAllowed t pid requester p owed) (hk : t.OwnersKnown) :
    ∃ amount u, WithdrawChecks t pid requester p owed amount u := by
  obtain ⟨hentry, howed, hlt⟩ := h
  have hnonneg := outstandingLiability_nonneg howed
  have hreserve : 0 ≤ p.reserve.value := hnonneg.trans (lt_iff_value_lt.mp hlt).le
  obtain ⟨amount, hamount⟩ := Option.isSome_iff_exists.1 (sub?_isSome hreserve hnonneg)
  have hsurplus : p.reserve.sub owed = .ok amount := orOverflow_eq_ok.mpr hamount
  have hcovered : ¬ p.reserve < owed := not_lt_iff_le.mpr (Decimal.le_of_lt hlt)
  obtain ⟨u, hu⟩ := hk pid p hentry.pool
  exact ⟨amount, u, hentry.pool, hentry.owner, not_le_iff_lt.mpr hentry.positive,
    hentry.inactive, hentry.paid, hentry.noneActive, howed, hcovered, hsurplus,
    (surplus_ne_zero_iff hnonneg hcovered hsurplus).mpr hlt, hu⟩

end Checks

/-! ## From every reachable state -/

/-- From every reachable state, a withdrawal sends a transfer exactly when every check passes:
the pool exists and belongs to the requester, holds a reserve, is inactive with its commission
paid and no stake active, and owes its stakes less than its reserve. The transfer carries the
reserve less those liabilities to the owner's wallet. The withdrawal succeeds exactly when the
executor accepts it, and the pool then holds no reserve and caches the liabilities as owed.
Liabilities above the reserve are refused with the shortfall; every outcome but success writes
no table and keeps no transfer. -/
theorem withdraw_pays_surplus {s : RunState} (hs : s.Reachable) (limits : CallLimits)
    (pid requester : Nat) :
    let r := (LedgerOp.withdrawReserve limits pid requester).exec s
    (r.2.sends = s.sends + 1 ↔ ∃ p owed, WithdrawAllowed s.tables pid requester p owed) ∧
    (∀ p owed, WithdrawAllowed s.tables pid requester p owed → ∃ u amount,
      s.tables.findUser p.ownerId = some u ∧ p.reserve.sub owed = .ok amount ∧
      (r.1 = .ok (.ok ()) ↔
        ∃ h, (s.sendNext (withdrawRequest limits p u amount pid)).1 = some (.ok h)) ∧
      (r.1 = .ok (.ok ()) →
        r.2.transfers = s.transfers ++ [withdrawRequest limits p u amount pid] ∧
        r.2.tables.findPool pid = some (p.emptied owed))) ∧
    (∀ p owed, WithdrawEntry s.tables pid requester p →
      outstandingLiability p (s.tables.stakesOf pid) = .ok owed → p.reserve < owed →
      ∃ shortfall, owed.sub p.reserve = .ok shortfall ∧
        r.1 = .ok (.error (.insufficientReserve owed p.reserve shortfall))) ∧
    (r.1 ≠ .ok (.ok ()) → r.2.tables = s.tables ∧ r.2.transfers = s.transfers) := by
  intro r
  have hk := hs.ownersKnown
  -- the answer is dropped; what is kept of a success is the checks and the writes
  have hspec : Holds (LedgerOp.withdrawReserve limits pid requester).action s
      ⟨fun _ s' => ∃ a, (Post.withdrawExits s limits pid requester).ok a s',
        (Post.withdrawExits s limits pid requester).refused,
        (Post.withdrawExits s limits pid requester).overflow⟩ :=
    holds_discard.mpr ((withdrawReserve_exits s limits pid requester).mono
      (fun a _ h => ⟨a, h⟩) (fun _ _ h => h) (fun _ _ h => h))
  rcases hr : r.1 with o | e | ⟨⟩
  · -- an overflow reckoning the liabilities of the one pool the entry checks pass with
    obtain ⟨hsame, p, hentry, hbad⟩ := LedgerOp.overflow_of_holds hspec hr
    have hstate : r.2 = s := hsame
    have hnot : ∀ q owed, WithdrawEntry s.tables pid requester q →
        outstandingLiability q (s.tables.stakesOf pid) ≠ .ok owed := by
      intro q owed hq howed
      rw [hentry.pool_eq hq.pool, hbad] at howed
      cases howed
    rw [hstate]
    refine ⟨⟨fun h => absurd h (by omega), ?_⟩, fun q owed h => absurd h.2.1 (hnot q owed h.1),
      fun q owed hq howed _ => absurd howed (hnot q owed hq), fun _ => ⟨rfl, rfl⟩⟩
    rintro ⟨q, owed, h⟩
    exact absurd h.2.1 (hnot q owed h.1)
  · rcases LedgerOp.refused_of_holds hspec hr with ⟨hsame, hno, hshort⟩ |
      ⟨p, owed, amount, u, hchecks, hfail, hsent⟩
    · -- refused before anything was sent: no check passes, owners being known
      have hstate : r.2 = s := hsame
      have hnot : ∀ q owed, ¬ WithdrawAllowed s.tables pid requester q owed := by
        intro q owed h
        obtain ⟨amount, u, hc⟩ := h.checks hk
        exact hno q owed amount u hc
      rw [hstate]
      refine ⟨⟨fun h => absurd h (by omega), ?_⟩, fun q owed h => absurd h (hnot q owed),
        fun q owed hq howed hlt => ?_, fun _ => ⟨rfl, rfl⟩⟩
      · rintro ⟨q, owed, h⟩
        exact absurd h (hnot q owed)
      · obtain ⟨shortfall, hsf, rfl⟩ := hshort q owed hq howed hlt
        exact ⟨shortfall, hsf, rfl⟩
    · -- the executor did not accept the transfer
      have hstate : r.2 = (s.sendNext (withdrawRequest limits p u amount pid)).2 := hsent
      rw [hstate]
      refine ⟨⟨fun _ => ⟨p, owed, hchecks.allowed⟩, fun _ => rfl⟩, fun q owed' hq => ?_,
        fun q owed' hq howed hlt => absurd hlt (hchecks.not_short hq howed),
        fun _ => ⟨rfl, RunState.sendNext_transfers_failed hfail⟩⟩
      obtain ⟨rfl, rfl⟩ := hchecks.same hq.1.pool hq.2.1
      refine ⟨u, amount, hchecks.user, hchecks.surplus, ⟨fun h => (nomatch h), ?_⟩,
        fun h => (nomatch h)⟩
      rintro ⟨h, hok⟩
      exact absurd hok (hfail h)
  · obtain ⟨-, p, owed, amount, u, h, hchecks, hsend, hsends, htransfers, hl⟩ :=
      LedgerOp.ok_of_holds hspec hr
    refine ⟨⟨fun _ => ⟨p, owed, hchecks.allowed⟩, fun _ => hsends⟩, fun q owed' hq => ?_,
      fun q owed' hq howed hlt => absurd hlt (hchecks.not_short hq howed),
      fun hne => absurd rfl hne⟩
    obtain ⟨rfl, rfl⟩ := hchecks.same hq.1.pool hq.2.1
    refine ⟨u, amount, hchecks.user, hchecks.surplus, ⟨fun _ => ⟨h, hsend⟩, fun _ => rfl⟩,
      fun _ => ⟨htransfers, ?_⟩⟩
    -- the pool written is the emptied one, under the id it was found at
    have hfound : s.tables.findPool (q.emptied owed').id = some q :=
      s.tables.findPool_self hchecks.pool
    rw [MemoryTables.findPool_of_logged _ hl, MemoryTables.findPool_updatePool _ hfound,
      if_pos (by simpa using s.tables.findPool_id hchecks.pool)]

/-- An owner's pool with its commission paid, never activated, holding a reserve of one. -/
def closedPoolRun : List LedgerOp :=
  [.registerUser "0:owner",
    .createPool ⟨1, Decimal.one, "0:master", "0:deposit", Decimal.one, 1, Decimal.zero⟩,
    .payCommission 2 (Decimal.ofNat 5) (Decimal.ofNat 5)]

/-- The state that run reaches from the empty store, with an executor that accepts every
transfer. -/
def closedPoolState : RunState :=
  (RunState.start ⟨fun _ _ => none, fun _ _ => some (.ok "tx"), fun _ _ => none⟩ ⟨0, 0⟩).runOps
    closedPoolRun

theorem withdraw_pays_surplus_of_closed_pool :
    let s := closedPoolState
    let r := (LedgerOp.withdrawReserve ⟨1000, 9⟩ 2 1).exec s
    (r.2.sends = s.sends + 1 ↔ ∃ p owed, WithdrawAllowed s.tables 2 1 p owed) ∧
    (∀ p owed, WithdrawAllowed s.tables 2 1 p owed → ∃ u amount,
      s.tables.findUser p.ownerId = some u ∧ p.reserve.sub owed = .ok amount ∧
      (r.1 = .ok (.ok ()) ↔
        ∃ h, (s.sendNext (withdrawRequest ⟨1000, 9⟩ p u amount 2)).1 = some (.ok h)) ∧
      (r.1 = .ok (.ok ()) →
        r.2.transfers = s.transfers ++ [withdrawRequest ⟨1000, 9⟩ p u amount 2] ∧
        r.2.tables.findPool 2 = some (p.emptied owed))) ∧
    (∀ p owed, WithdrawEntry s.tables 2 1 p →
      outstandingLiability p (s.tables.stakesOf 2) = .ok owed → p.reserve < owed →
      ∃ shortfall, owed.sub p.reserve = .ok shortfall ∧
        r.1 = .ok (.error (.insufficientReserve owed p.reserve shortfall))) ∧
    (r.1 ≠ .ok (.ok ()) → r.2.tables = s.tables ∧ r.2.transfers = s.transfers) :=
  withdraw_pays_surplus ⟨_, _, closedPoolRun, rfl⟩ ⟨1000, 9⟩ 2 1

end PoolTreasury
