import PoolTreasury.Proofs.Ledger.Identity

/-! # A stake is settled at most once

A claim checks that its stake has no claim paid, sends the payout, and only then raises the
flag of its kind, writing the stake and its pool together. So the two flags of a stake are
never both raised and never lowered, and a stake with a flag raised is refused by every later
claim before anything is sent. On a run that no overflow cut short, the claim transfers of a
stake match its raised flags kind by kind, so at most one ever leaves.

Two limits of these guarantees come from the code. A claim looks its stake's pool up before it
checks the flags, so once the pool is deleted a claim on a settled stake is refused as a
missing pool rather than as already settled. And an overflow after the payout was sent keeps
the transfer and raises no flag, which is why transfers are counted on runs without one.

The eligibility of a closed stake for insurance reads only its pool's coating and its opening
and closing prices, none of which changes after the closing.
-/

namespace PoolTreasury

open MemoryTables

/-! ## Claim flags and claim transfers -/

/-- Whether the claim of this kind has been paid on the stake. -/
def Stake.isPaid (st : Stake) : ClaimKind → Bool
  | .reward => st.isRewardPaid
  | .insurance => st.isInsurancePaid

theorem Stake.isPaid_of_unsettled {st : Stake} (h : st.isSettled = false) (kind : ClaimKind) :
    st.isPaid kind = false := by
  simp only [Stake.isSettled, Bool.or_eq_false_iff] at h
  cases kind with
  | reward => exact h.1
  | insurance => exact h.2

/-- Paying a claim raises the flag of its kind and no other. -/
@[simp] theorem Stake.isPaid_paid (st : Stake) (kind kind' : ClaimKind) :
    (st.paid kind).isPaid kind' = (st.isPaid kind' || kind' == kind) := by
  cases kind <;> cases kind' <;> simp [Stake.isPaid, Stake.paid]

/-- Whether stake `k` has its claim of this kind paid; a stake that is not there has none. -/
def MemoryTables.paidAt (t : MemoryTables) (k : Nat) (kind : ClaimKind) : Bool :=
  (t.findStake k).any (·.isPaid kind)

/-- The claim transfers of this kind sent so far for stake `k`. -/
def RunState.claimCount (s : RunState) (k : Nat) (kind : ClaimKind) : Nat :=
  s.transfers.countP (·.comment == claimComment kind k)

/-- Decimal digits read back as the number they write. -/
def ofDecimalDigits (cs : List Char) : Nat := cs.foldl (fun n c => 10 * n + (c.toNat - 48)) 0

theorem ofDecimalDigits_toDigits (n : Nat) : ofDecimalDigits (Nat.toDigits 10 n) = n := by
  induction n using Nat.strong_induction_on with
  | _ n ih =>
    rw [Nat.toDigits_eq_if (by decide)]
    split
    · rename_i h
      simp [ofDecimalDigits, Nat.toNat_digitChar_sub_48_of_lt_ten h]
    · -- the last digit is written after the digits of the number's tenth
      have hd : ofDecimalDigits (Nat.toDigits 10 (n / 10) ++ [(n % 10).digitChar]) =
          10 * ofDecimalDigits (Nat.toDigits 10 (n / 10)) + n % 10 := by
        simp only [ofDecimalDigits, List.foldl_append, List.foldl_cons, List.foldl_nil,
          Nat.toNat_digitChar_sub_48_of_lt_ten (Nat.mod_lt n (by decide : 10 > 0))]
      rw [hd, ih (n / 10) (by omega)]
      omega

/-- Different numbers are written differently. -/
theorem toString_nat_inj {m n : Nat} (h : toString m = toString n) : m = n := by
  have h' : Nat.toDigits 10 m = Nat.toDigits 10 n := by
    rw [← Nat.toList_repr, ← Nat.toList_repr]
    exact congrArg String.toList h
  rw [← ofDecimalDigits_toDigits m, ← ofDecimalDigits_toDigits n, h']

/-- The comment of a claim transfer names its kind and its stake. -/
theorem claimComment_inj {kind kind' : ClaimKind} {k k' : Nat} :
    claimComment kind k = claimComment kind' k' ↔ kind = kind' ∧ k = k' := by
  constructor
  · intro h
    cases kind <;> cases kind'
    · have h' : "Reward for stake #" ++ toString k = "Reward for stake #" ++ toString k' := h
      exact ⟨rfl, toString_nat_inj ((String.append_right_inj _).mp h')⟩
    · -- the comments of the two kinds differ in their first letter
      have h' : ("Reward for stake #" ++ toString k).toList =
          ("Insurance for stake #" ++ toString k').toList := congrArg String.toList h
      rw [String.toList_append, String.toList_append] at h'
      simp only [String.reduceToList, List.cons_append, List.cons.injEq, Char.reduceEq,
        false_and] at h'
    · have h' : ("Insurance for stake #" ++ toString k).toList =
          ("Reward for stake #" ++ toString k').toList := congrArg String.toList h
      rw [String.toList_append, String.toList_append] at h'
      simp only [String.reduceToList, List.cons_append, List.cons.injEq, Char.reduceEq,
        false_and] at h'
    · have h' : "Insurance for stake #" ++ toString k = "Insurance for stake #" ++ toString k' := h
      exact ⟨rfl, toString_nat_inj ((String.append_right_inj _).mp h')⟩
  · rintro ⟨rfl, rfl⟩
    rfl

/-- A withdrawal's transfer is not a claim transfer. -/
theorem withdrawRequest_comment_ne (limits : CallLimits) (p : Pool) (u : User) (amount : Decimal)
    (pid : Nat) (kind : ClaimKind) (k : Nat) :
    (withdrawRequest limits p u amount pid).comment ≠ claimComment kind k := by
  intro h
  cases kind
  · have h' : ("Reserve withdrawal from pool #" ++ toString pid).toList =
        ("Reward for stake #" ++ toString k).toList := congrArg String.toList h
    rw [String.toList_append, String.toList_append] at h'
    simp only [String.reduceToList, List.cons_append, List.cons.injEq, Char.reduceEq, false_and,
      true_and] at h'
  · have h' : ("Reserve withdrawal from pool #" ++ toString pid).toList =
        ("Insurance for stake #" ++ toString k).toList := congrArg String.toList h
    rw [String.toList_append, String.toList_append] at h'
    simp only [String.reduceToList, List.cons_append, List.cons.injEq, Char.reduceEq, false_and,
      true_and] at h'

namespace RunState

variable {s s' : RunState}

theorem claimCount_of_transfers (h : s'.transfers = s.transfers) (k : Nat) (kind : ClaimKind) :
    s'.claimCount k kind = s.claimCount k kind := by
  simp only [claimCount, h]

theorem claimCount_of_append {req : TransferRequest} (h : s'.transfers = s.transfers ++ [req])
    (k : Nat) (kind : ClaimKind) :
    s'.claimCount k kind =
      s.claimCount k kind + if req.comment = claimComment kind k then 1 else 0 := by
  simp only [claimCount, h, List.countP_append, List.countP_singleton, beq_iff_eq]

end RunState

namespace MemoryTables

variable {t : MemoryTables}

theorem paidAt_of_findStake {t' : MemoryTables} (h : ∀ k, t'.findStake k = t.findStake k) :
    t'.paidAt = t.paidAt := by
  funext k kind
  simp only [paidAt, h]

theorem Logged.paidAt {t' : MemoryTables} (hl : t.Logged t') : t'.paidAt = t.paidAt :=
  paidAt_of_findStake (t.findStake_of_logged hl)

/-- A new stake, with no claim paid, under an id no stake had. -/
theorem paidAt_saveStake (hf : t.Fresh) {q : Stake} (hq : ∀ kind, q.isPaid kind = false) :
    (t.saveStake q).2.paidAt = t.paidAt := by
  funext k kind
  simp only [paidAt, findStake_saveStake]
  split
  · rename_i hk
    rw [← hk, hf.findStake_next]
    exact hq kind
  · rfl

/-- A stake written over one that exists with the same flags. -/
theorem paidAt_updateStake {q st : Stake} (hs : t.findStake q.id = some st)
    (hq : ∀ kind, q.isPaid kind = st.isPaid kind) : (t.updateStake q).2.paidAt = t.paidAt := by
  funext k kind
  simp only [paidAt, findStake_updateStake t hs]
  split
  · rename_i hk
    rw [← hk, hs]
    exact hq kind
  · rfl

theorem paidAt_settleClaim {q st : Stake} {r p : Pool} (hs : t.findStake q.id = some st)
    (hp : t.findPool r.id = some p) (k : Nat) (kind : ClaimKind) :
    (t.settleClaim q r).2.paidAt k kind = if q.id = k then q.isPaid kind else t.paidAt k kind := by
  simp only [paidAt, findStake_settleClaim t hs hp]
  split <;> rfl

end MemoryTables

/-- The accrual pass raises no flag: it writes balances and closings only. -/
theorem TickWrite.paidAt {now : Instant} {x : Stake} {t t' : MemoryTables}
    (hw : TickWrite now x t t') : t'.paidAt = t.paidAt := by
  cases hw with
  | accrue _ hs _ _ _ => exact paidAt_updateStake (t.findStake_self hs :) fun kind => by cases kind <;> rfl
  | close _ hs _ _ => exact paidAt_updateStake (t.findStake_self hs :) fun kind => by cases kind <;> rfl
  | refresh _ _ => exact paidAt_of_findStake (t.findStake_updatePool _)
  | note hl => exact hl.paidAt

/-- What a step does to the claim flags and the claim transfers. Either the flags stay as
they were, and so do the claim transfers unless the step is a claim that overflowed after its
payout went out; or the step is a claim on a stake with no claim paid, which raised the flag of
its kind and sent the one transfer of that kind for that stake. -/
theorem OpStep.claims {op : LedgerOp} {s s' : RunState} {r : Outcome} (hs : OpStep op s r s')
    (hf : s.tables.Fresh) :
    (s'.tables.paidAt = s.tables.paidAt ∧
      ((∀ k kind, s'.claimCount k kind = s.claimCount k kind) ∨ ∃ o, r = .error o)) ∨
    ∃ sid kind st, s.tables.findStake sid = some st ∧ st.isSettled = false ∧
      (∀ k kind', s'.tables.paidAt k kind' =
        if sid = k then (st.paid kind).isPaid kind' else s.tables.paidAt k kind') ∧
      ∀ k kind', s'.claimCount k kind' =
        s.claimCount k kind' + if kind = kind' ∧ sid = k then 1 else 0 := by
  cases hs with
  | quiet ht htr => exact .inl ⟨by rw [ht], .inl (RunState.claimCount_of_transfers htr)⟩
  | registerUser ht htr =>
    refine .inl ⟨?_, .inl (RunState.claimCount_of_transfers htr)⟩
    rw [ht]
    exact paidAt_of_findStake (s.tables.findStake_saveUser _ _)
  | createPool _ _ hl htr =>
    refine .inl ⟨?_, .inl (RunState.claimCount_of_transfers htr)⟩
    exact hl.paidAt.trans (paidAt_of_findStake (s.tables.findStake_savePool _))
  | addReserve _ _ _ _ hl htr =>
    refine .inl ⟨?_, .inl (RunState.claimCount_of_transfers htr)⟩
    exact hl.paidAt.trans (paidAt_of_findStake (s.tables.findStake_updatePool _))
  | payCommission _ _ _ hl htr =>
    refine .inl ⟨?_, .inl (RunState.claimCount_of_transfers htr)⟩
    exact hl.paidAt.trans (paidAt_of_findStake (s.tables.findStake_updatePool _))
  | setActive _ _ hl htr =>
    refine .inl ⟨?_, .inl (RunState.claimCount_of_transfers htr)⟩
    exact hl.paidAt.trans (paidAt_of_findStake (s.tables.findStake_updatePool _))
  | deletePool _ _ _ _ hl htr =>
    refine .inl ⟨?_, .inl (RunState.claimCount_of_transfers htr)⟩
    exact hl.paidAt.trans (paidAt_of_findStake (s.tables.findStake_deletePool _))
  | createStake _ _ _ _ _ _ _ hl htr =>
    refine .inl ⟨?_, .inl (RunState.claimCount_of_transfers htr)⟩
    exact hl.paidAt.trans (paidAt_saveStake hf fun kind => by cases kind <;> rfl)
  | tick hr htr =>
    refine .inl ⟨?_, .inl (RunState.claimCount_of_transfers htr)⟩
    exact hr.invariant (P := fun t => t.paidAt = s.tables.paidAt)
      (fun _ hw h => hw.paidAt.trans h) rfl
  | claimSent _ ht _ => exact .inl ⟨by rw [ht], .inr ⟨_, rfl⟩⟩
  | @claimSettled _ sid kind _ _ _ st p _ _ reserve free _ hc _ _ hl htr =>
    refine .inr ⟨sid, kind, st, hc.stake, hc.unsettled, fun k kind' => ?_, fun k kind' => ?_⟩
    · have hp : s.tables.findPool ({ p with reserve, tempReserve := free } : Pool).id = some p :=
        s.tables.findPool_self hc.pool
      rw [hl.paidAt, paidAt_settleClaim hc.findStake_paid hp, Stake.paid_id,
        s.tables.findStake_id hc.stake]
    · rw [RunState.claimCount_of_append htr]
      simp only [claimRequest, claimComment_inj]
  | withdraw _ hl htr =>
    refine .inl ⟨?_, .inl fun k kind => ?_⟩
    · exact hl.paidAt.trans (paidAt_of_findStake (s.tables.findStake_updatePool _))
    · rw [RunState.claimCount_of_append htr, if_neg (withdrawRequest_comment_ne _ _ _ _ _ _ _)]
      rfl

/-! ## Invariants -/

/-- No stake has both claims paid. -/
def MemoryTables.SettledOnce (t : MemoryTables) : Prop :=
  ∀ k, ¬ (t.paidAt k .reward = true ∧ t.paidAt k .insurance = true)

/-- Every step keeps at most one flag per stake: a claim raises one on a stake with none. -/
theorem OpStep.settledOnce {op : LedgerOp} {s s' : RunState} {r : Outcome}
    (hs : OpStep op s r s') (hf : s.tables.Fresh) (h : s.tables.SettledOnce) :
    s'.tables.SettledOnce := by
  intro k
  rcases hs.claims hf with ⟨hpaid, _⟩ | ⟨sid, kind, st, _, hunsettled, hpaid, _⟩
  · rw [hpaid]
    exact h k
  · rw [hpaid k .reward, hpaid k .insurance]
    split
    · -- the settled stake: only the flag of the claim's kind is raised
      simp only [Stake.isPaid_paid, Stake.isPaid_of_unsettled hunsettled, Bool.false_or,
        beq_iff_eq]
      rintro ⟨rfl, hne⟩
      cases hne
    · exact h k

/-- Every claim transfer of a stake is matched by the raised flag of its kind. -/
def RunState.TransfersMatchFlags (s : RunState) : Prop :=
  ∀ k kind, s.claimCount k kind = (s.tables.paidAt k kind).toNat

/-- Every step that does not overflow keeps the transfers matched with the flags: a claim
sends the first transfer of its kind for a stake with no flag raised, and raises that flag. -/
theorem OpStep.transfersMatchFlags {op : LedgerOp} {s s' : RunState} {r : Except LedgerError Unit}
    (hs : OpStep op s (.ok r) s') (hf : s.tables.Fresh) (h : s.TransfersMatchFlags) :
    s'.TransfersMatchFlags := by
  intro k kind'
  rcases hs.claims hf with ⟨hpaid, hcount | ⟨o, ho⟩⟩ | ⟨sid, kind, st, hst, hunsettled, hpaid, hcount⟩
  · rw [hcount, hpaid]
    exact h k kind'
  · cases ho
  · rw [hcount, hpaid, h k kind']
    by_cases hk : sid = k
    · -- before the claim its stake had neither flag, so no transfer of either kind
      subst hk
      have hbefore : s.tables.paidAt sid kind' = false := by
        simp only [paidAt, hst, Option.any_some, Stake.isPaid_of_unsettled hunsettled]
      rw [hbefore, if_pos rfl, Stake.isPaid_paid, Stake.isPaid_of_unsettled hunsettled]
      by_cases hkind : kind = kind'
      · subst hkind
        simp
      · simp [hkind, beq_eq_false_iff_ne.mpr (Ne.symm hkind)]
    · simp [hk]

/-- No reachable state has a stake with both claims paid. -/
theorem settledOnce_of_reachable {s : RunState} (h : s.Reachable) : s.tables.SettledOnce := by
  have hboth := RunState.Reachable.invariant
    (I := fun s => s.tables.Fresh ∧ s.tables.SettledOnce)
    (fun _ _ => ⟨fresh_empty, fun _ h => by simp [paidAt, findStake, RunState.start] at h⟩)
    (fun _ _ _ _ h hs => ⟨hs.fresh h.1, hs.settledOnce h.1 h.2⟩) h
  exact hboth.2

/-- Along a run from the empty store that no overflow cut short, the claim transfers match
the flags. -/
theorem transfersMatchFlags_of_unbroken (outside : Outside) (clock : Instant) (ops : List LedgerOp)
    (h : (RunState.start outside clock).Unbroken ops) :
    ((RunState.start outside clock).runOps ops).TransfersMatchFlags := by
  have hboth := RunState.runOps_invariant_of_unbroken
    (I := fun s => s.tables.Fresh ∧ s.TransfersMatchFlags)
    (fun _ _ _ _ h hs => ⟨hs.fresh h.1, hs.transfersMatchFlags h.1 h.2⟩) _ ops h
    ⟨fresh_empty, fun _ _ => rfl⟩
  exact hboth.2

/-! ## Later claims and eligibility -/

/-- A claim on a stake with a claim paid is refused before anything is sent or written: as
already settled while the stake's pool exists, as a missing pool once the pool is deleted. -/
theorem claim_exec_of_settled (limits : CallLimits) (kind : ClaimKind) {s : RunState} {k : Nat}
    {st : Stake} (hs : s.tables.findStake k = some st) (hsettled : st.isSettled = true) :
    (LedgerOp.claim limits k kind).exec s =
      (.ok (.error (if (s.tables.findPool st.poolId).isSome then .alreadySettled k
        else .poolNotFound st.poolId)), s) := by
  apply LedgerOp.exec_of_refused
  simp only [LedgerOp.action, holds_discard, claim, holds_bind, holds_ledgerStake, hs,
    holds_ledgerPool]
  cases hp : s.tables.findPool st.poolId with
  | none => simp
  | some p => simp [hsettled, holds_throw]

/-- Eligibility for insurance reads the pool's coating and the stake's two prices only. -/
theorem isInsuranceEligible_congr {p p' : Pool} {st st' : Stake}
    (hc : p'.coatingPercent = p.coatingPercent) (ho : st'.openPrice = st.openPrice)
    (hcl : st'.closePrice = st.closePrice) :
    isInsuranceEligible p' st' = isInsuranceEligible p st := by
  simp only [isInsuranceEligible, stakePriceChange, hc, ho, hcl]

/-- Once a stake is closed, its eligibility for insurance is the same at every later state
where it and its pool are still found. -/
theorem isInsuranceEligible_of_later {s s' : RunState} (h : s.Reachable)
    (hl : s.tables.Later s'.tables) {k : Nat} {st st' : Stake} {p p' : Pool}
    (hs : s.tables.findStake k = some st) (hclosed : st.isActive = false)
    (hp : s.tables.findPool st.poolId = some p) (hs' : s'.tables.findStake k = some st')
    (hp' : s'.tables.findPool st'.poolId = some p') :
    isInsuranceEligible p' st' = isInsuranceEligible p st := by
  obtain ⟨st'', hs'', hkeeps⟩ := hl.stake hs
  rw [hs'] at hs''
  cases hs''
  -- the pool found later has the stake's pool id, which was given out by then
  rw [hkeeps.poolId] at hp'
  obtain ⟨p'', hp'', hpkeeps⟩ := hl.pool hp' (h.fresh.stakePool hs)
  rw [hp] at hp''
  cases hp''
  exact isInsuranceEligible_congr hpkeeps.coatingPercent hkeeps.openPrice
    (hkeeps.closed hclosed).2.1

/-! ## Settlement at most once -/

/-- For every run from the empty store and every stake: the two claim flags are never both
raised, and a raised flag stays raised through any later operations; once the stake is
closed its eligibility for insurance never changes while it and its pool are found; on a run
no overflow cut short, at most one claim transfer for the stake ever left, and one of each kind
left exactly when that kind's flag is raised; and a claim on a stake with a flag raised sends
and writes nothing and is refused, as already settled while the stake's pool exists and as a
missing pool once the pool is deleted. -/
theorem stake_settled_at_most_once (outside : Outside) (clock : Instant) (ops : List LedgerOp) :
    let s := (RunState.start outside clock).runOps ops
    (∀ {k st}, s.tables.findStake k = some st →
      ¬ (st.isRewardPaid = true ∧ st.isInsurancePaid = true)) ∧
    (∀ (later : List LedgerOp) {k st}, s.tables.findStake k = some st →
      ∃ st', (s.runOps later).tables.findStake k = some st' ∧
        (st.isRewardPaid = true → st'.isRewardPaid = true) ∧
        (st.isInsurancePaid = true → st'.isInsurancePaid = true) ∧
        (st.isActive = false → ∀ p p', s.tables.findPool st.poolId = some p →
          (s.runOps later).tables.findPool st'.poolId = some p' →
          isInsuranceEligible p' st' = isInsuranceEligible p st)) ∧
    ((RunState.start outside clock).Unbroken ops → ∀ k,
      s.claimCount k .reward + s.claimCount k .insurance ≤ 1 ∧
      ∀ kind, s.claimCount k kind = (s.tables.paidAt k kind).toNat) ∧
    (∀ (limits : CallLimits) (kind : ClaimKind) {k st}, s.tables.findStake k = some st →
      st.isSettled = true →
      (LedgerOp.claim limits k kind).exec s =
        (.ok (.error (if (s.tables.findPool st.poolId).isSome then .alreadySettled k
          else .poolNotFound st.poolId)), s)) := by
  intro s
  have hreach : s.Reachable := ⟨outside, clock, ops, rfl⟩
  have honce := settledOnce_of_reachable hreach
  refine ⟨fun {k st} hs hboth => ?_, fun later {k st} hs => ?_, fun hunbroken k => ?_,
    fun limits kind _ _ hs hsettled => claim_exec_of_settled limits kind hs hsettled⟩
  · -- both flags raised would make both `paidAt` true
    apply honce k
    simp only [paidAt, hs, Option.any_some, Stake.isPaid]
    exact hboth
  · obtain ⟨st', hs', hkeeps⟩ := (hreach.later later).stake hs
    refine ⟨st', hs', hkeeps.rewardPaid, hkeeps.insurancePaid, fun hclosed p p' hp hp' => ?_⟩
    exact isInsuranceEligible_of_later hreach (hreach.later later) hs hclosed hp hs' hp'
  · have hmatch := transfersMatchFlags_of_unbroken outside clock ops hunbroken
    refine ⟨?_, fun kind => hmatch k kind⟩
    rw [hmatch k .reward, hmatch k .insurance]
    -- at most one of the two flags is raised
    have hone := honce k
    revert hone
    cases s.tables.paidAt k .reward <;> cases s.tables.paidAt k .insurance <;> simp

/-! ## A claim after the pool is deleted -/

/-- Collaborators that price every token at one and accept every transfer. -/
def Outside.accepting : Outside :=
  ⟨fun _ _ => some (.ok (Decimal.ofNat 1)), fun _ _ => some (.ok "tx"), fun _ _ => none⟩

/-- Two users, a pool of 100 paying ten percent a day for one day, and a stake of 5 in it. -/
def openingRun : List LedgerOp :=
  [.registerUser "owner", .registerUser "staker",
    .createPool ⟨1, Decimal.ofNat 100, "m", "d", Decimal.ofNat 10, 1, Decimal.ofNat 0⟩,
    .payCommission 3 (Decimal.ofNat 5) (Decimal.ofNat 5), .setActive 3 true,
    .createStake 2 3 (Decimal.ofNat 5) (Decimal.ofNat 1)]

/-- The tables `openingRun` leaves, written out. -/
def openingTables : MemoryTables :=
  { lastId := 8,
    users := [⟨1, "owner", ⟨0, 0⟩⟩, ⟨2, "staker", ⟨0, 0⟩⟩],
    byAddress := [("owner", 1), ("staker", 2)],
    pools := [⟨3, 1, "d", "m", Decimal.ofNat 100, Decimal.ofNat 100, Decimal.ofNat 10, 1,
      Decimal.ofNat 0, true, true, ⟨0, 0⟩⟩],
    stakes := [⟨7, 2, 3, Decimal.ofNat 5, Decimal.ofNat 5, ⟨0, 0⟩, ⟨86400, 0⟩, none, true,
      Decimal.ofNat 1, none, false, false⟩],
    active := [(⟨86400, 0⟩, 7)],
    operations := [⟨4, .poolCreated, "Pool #3 created with reserve 100", 1, ⟨0, 0⟩⟩,
      ⟨5, .commissionPaid, "Commission 5 paid for pool #3", 1, ⟨0, 0⟩⟩,
      ⟨6, .poolActivated, "Pool #3 pool_activated", 1, ⟨0, 0⟩⟩,
      ⟨8, .stakeCreated, "Staked 5 in pool #3 (stake #7)", 2, ⟨0, 0⟩⟩] }

/-- The stake matures and its reward is paid; the owner then deactivates the pool, withdraws
the reserve and deletes the pool. -/
def settlingRun (limits : CallLimits) : List LedgerOp :=
  [.tick limits.callMs ⟨86400, 0⟩, .claim limits 7 .reward, .setActive 3 false,
    .withdrawReserve limits 3 1, .deletePool 3]

/-- A stake whose reward was paid, claimed again after its pool was deleted, is refused as a
missing pool and not as already settled. -/
theorem claim_after_pool_deletion_not_already_settled :
    let limits : CallLimits := ⟨1000, 9⟩
    let s := (RunState.start .accepting ⟨0, 0⟩).runOps (openingRun ++ settlingRun limits)
    ∃ st, s.tables.findStake 7 = some st ∧ st.isSettled = true ∧
      (LedgerOp.claim limits 7 .reward).exec s = (.ok (.error (.poolNotFound 3)), s) := by
  intro limits s
  -- the run is evaluated from the written-out tables, not re-run from the empty store
  have hrun : s = RunState.runOps ⟨openingTables, ⟨0, 0⟩, .accepting, 0, 0, []⟩
      (settlingRun limits) := by
    show (RunState.start .accepting ⟨0, 0⟩).runOps (openingRun ++ settlingRun limits) = _
    rw [RunState.runOps_append]
    rfl
  have hs : s.tables.findStake 7 = some ⟨7, 2, 3, Decimal.ofNat 5, Decimal.ofNat 5, ⟨0, 0⟩,
      ⟨86400, 0⟩, some ⟨86400, 0⟩, false, Decimal.ofNat 1, some (Decimal.ofNat 1), true, false⟩ := by
    rw [hrun]
    decide +kernel
  have hp : s.tables.findPool 3 = none := by
    rw [hrun]
    decide +kernel
  refine ⟨_, hs, rfl, ?_⟩
  rw [claim_exec_of_settled limits .reward hs rfl, hp]
  rfl

end PoolTreasury
