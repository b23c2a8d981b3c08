import PoolTreasury.Proofs.Pool.FreeReserve
import PoolTreasury.Proofs.Ledger.Refusal

/-! # Opening a stake within the pool's capacity

A stake opens when its amount is positive, its price is not negative, its user and its pool
exist, the pool is active, the pool's active principal with the new amount stays below a
tenth of the reserve, and its term ends at a date the clock can hold (`StakeAdmitted`). The
sum and the tenth are those the ledger's decimals compute: a result with more than 28 places
is rounded half to even. The tenth of a reserve written with 28 places may therefore lie
below the exact tenth, and an amount between the two is refused although it is below the
exact tenth (`roundingReserve`).

Every way opening a stake can end is listed once, in the order the ledger checks
(`createStake_exits`); what follows reads the statements below off that list.

Main statement (`stake_opens_within_capacity`): from every reachable state, opening a stake
succeeds exactly when every check passes; the pool's active principal is then the sum the
check computed, still below the limit; a refusal for want of room reports the room left,
floored at zero; and every other outcome leaves the store as it was.
-/

namespace PoolTreasury

/-! ## The new stake comes last -/

section Upsert

variable {α : Type} (key : α → Nat)

/-- A record whose key is above every key of the list is added at its end. -/
theorem upsertBy_eq_append (x : α) {l : List α} (h : ∀ y ∈ l, key y < key x) :
    upsertBy key x l = l ++ [x] := by
  induction l with
  | nil => rfl
  | cons y ys ih =>
    have hy := h y List.mem_cons_self
    have hne : key x ≠ key y := by omega
    simp only [upsertBy, Nat.not_lt.2 (Nat.le_of_lt hy), hne, if_false,
      ih fun z hz => h z (List.mem_cons_of_mem y hz), List.cons_append]

end Upsert

namespace MemoryTables

variable {t : MemoryTables}

/-- A saved stake takes the next id, above every stake's id, so it is listed last. -/
theorem stakes_saveStake_append (hf : t.Fresh) (hs : t.Sorted) (st : Stake) :
    (t.saveStake st).2.stakes = t.stakes ++ [(t.saveStake st).1] := by
  have hbelow : ∀ y ∈ t.stakes, y.id < t.lastId + 1 := fun y hy =>
    Nat.lt_succ_of_le (hf.stake (hs.findStake_of_mem hy))
  rw [stakes_saveStake, upsertBy_eq_append Stake.id _ hbelow, saveStake_fst]

/-- So it is listed last in its pool. -/
theorem stakesOf_saveStake (hf : t.Fresh) (hs : t.Sorted) (st : Stake) :
    (t.saveStake st).2.stakesOf st.poolId = t.stakesOf st.poolId ++ [(t.saveStake st).1] := by
  unfold stakesOf
  rw [stakes_saveStake_append hf hs, List.filter_append, saveStake_fst]
  simp

end MemoryTables

/-- Adding an active stake adds its principal to the pool's active principal. -/
theorem activePrincipal_append_active {l : List Stake} {st : Stake} (hactive : st.isActive = true)
    {principal : Decimal} (hp : activePrincipal l = .ok principal) :
    activePrincipal (l ++ [st]) = principal.add st.amount := by
  unfold activePrincipal at hp ⊢
  rw [List.filter_append, List.filter_singleton, hactive, cond_true, List.map_append,
    List.foldlM_append, hp]
  exact bind_pure (principal.add st.amount)

/-! ## The checks -/

/-- The capacity check passes exactly when the active principal plus the amount, summed in
decimals, is below the tenth of the reserve, taken in decimals. -/
theorem fitsCapacity_eq_ok_true {principal amount reserve : Decimal} :
    fitsCapacity principal amount reserve = .ok true ↔
      ∃ total limit, principal.add amount = .ok total ∧ capacityLimit reserve = .ok limit ∧
        total < limit := by
  unfold fitsCapacity
  cases htotal : principal.add amount with
  | error o => simp [bind, Except.bind]
  | ok total =>
    cases hlimit : capacityLimit reserve with
    | error o => simp [bind, Except.bind]
    | ok limit => simp [bind, Except.bind, pure, Except.pure]

/-- The room left under the capacity is the tenth of the reserve less the principal, floored
at zero, both taken in decimals. -/
theorem capacityLeft_eq_ok {principal reserve available : Decimal}
    (h : capacityLeft principal reserve = .ok available) :
    ∃ limit room, capacityLimit reserve = .ok limit ∧ limit.sub principal = .ok room ∧
      available = room.max Decimal.zero := by
  obtain ⟨limit, hlimit, hrest⟩ := bind_eq_ok_iff.1 h
  obtain ⟨room, hroom, hmax⟩ := bind_eq_ok_iff.1 hrest
  exact ⟨limit, room, hlimit, hroom, (Except.ok.inj hmax).symm⟩

/-- A term ending inside the clock's range is computed; one past it fails. -/
theorem Stake.termEnd?_eq_ok_iff {start : Instant} {days : Nat} :
    (∃ e, Stake.termEnd? start days = .ok e) ↔ (Stake.termEnd start days).inRange = true := by
  unfold Stake.termEnd?
  split
  · rename_i hin
    exact ⟨fun _ => hin, fun _ => ⟨_, rfl⟩⟩
  · rename_i hout
    refine ⟨fun ⟨_, he⟩ => ?_, fun hin => absurd hin hout⟩
    cases he

/-- Every check opening a stake at time `now` makes passed, against the tables `t`: a positive
amount, a price not below zero, a known user, an existing and active pool `p`, and room under
its capacity: the active principal of its stakes plus the amount, `total`, is below the tenth
of the reserve, `limit`, both computed in decimals. Last, the term ends at a date the clock
can hold. -/
structure StakeAdmitted (t : MemoryTables) (now : Instant) (userId pid : Nat)
    (amount price : Decimal) (p : Pool) (principal total limit : Decimal) : Prop where
  amount_pos : Decimal.zero < amount
  price_nonneg : Decimal.zero ≤ price
  user : ∃ u, t.findUser userId = some u
  pool : t.findPool pid = some p
  active : p.isActive = true
  principal_ok : activePrincipal (t.stakesOf pid) = .ok principal
  total_ok : principal.add amount = .ok total
  limit_ok : capacityLimit p.reserve = .ok limit
  fits : total < limit
  term : (Stake.termEnd now p.periodDays).inRange = true

/-- Some pool, principal, sum and limit pass every check. -/
def StakeOpens (t : MemoryTables) (now : Instant) (userId pid : Nat) (amount price : Decimal) :
    Prop :=
  ∃ p principal total limit, StakeAdmitted t now userId pid amount price p principal total limit

namespace StakeAdmitted

variable {t : MemoryTables} {now : Instant} {userId pid : Nat} {amount price : Decimal} {p : Pool}
  {principal total limit : Decimal}

/-- The pool and the principal are those the tables determine. -/
theorem pool_eq (h : StakeAdmitted t now userId pid amount price p principal total limit)
    {q : Pool} (hq : t.findPool pid = some q) : q = p :=
  Option.some.inj (hq.symm.trans h.pool)

theorem principal_eq (h : StakeAdmitted t now userId pid amount price p principal total limit)
    {principal' : Decimal} (hprincipal : activePrincipal (t.stakesOf pid) = .ok principal') :
    principal' = principal :=
  Except.ok.inj (hprincipal.symm.trans h.principal_ok)

/-- Once the stake is saved and the operation recorded, the store holds it under the next id,
its pool is unchanged, and the pool's active principal is the sum the check computed. -/
theorem opened (h : StakeAdmitted t now userId pid amount price p principal total limit)
    (hf : t.Fresh) (hs : t.Sorted) {t' : MemoryTables}
    (hl : (t.saveStake (Stake.opening userId pid amount price p.periodDays now)).2.Logged t') :
    t'.findStake (t.lastId + 1) =
        some { Stake.opening userId pid amount price p.periodDays now with id := t.lastId + 1 } ∧
      t'.findPool pid = some p ∧ activePrincipal (t'.stakesOf pid) = .ok total := by
  have hstakes : t'.stakesOf pid =
      (t.saveStake (Stake.opening userId pid amount price p.periodDays now)).2.stakesOf pid := by
    unfold MemoryTables.stakesOf
    rw [MemoryTables.stakes_of_logged _ hl]
  have hsaved : (t.saveStake (Stake.opening userId pid amount price p.periodDays now)).2.stakesOf pid =
      t.stakesOf pid ++ [(t.saveStake (Stake.opening userId pid amount price p.periodDays now)).1] :=
    MemoryTables.stakesOf_saveStake hf hs _
  refine ⟨?_, ?_, ?_⟩
  · rw [MemoryTables.findStake_of_logged _ hl, MemoryTables.findStake_saveStake, if_pos rfl]
  · rw [MemoryTables.findPool_of_logged _ hl, MemoryTables.findPool_saveStake, h.pool]
  -- the new stake is active and listed last, so the principal grows by its amount
  · rw [hstakes, hsaved, activePrincipal_append_active rfl h.principal_ok]
    exact h.total_ok

end StakeAdmitted

/-! ## Every exit of opening a stake -/

/-- The checks made before the capacity check, passed with the pool `p`: a positive amount, a
price not below zero, a known user, and an existing, active pool. -/
structure StakeEntry (t : MemoryTables) (userId pid : Nat) (amount price : Decimal) (p : Pool) :
    Prop where
  amount_pos : Decimal.zero < amount
  price_nonneg : Decimal.zero ≤ price
  user : ∃ u, t.findUser userId = some u
  pool : t.findPool pid = some p
  active : p.isActive = true

theorem StakeAdmitted.entry {t : MemoryTables} {now : Instant} {userId pid : Nat}
    {amount price : Decimal} {p : Pool} {principal total limit : Decimal}
    (h : StakeAdmitted t now userId pid amount price p principal total limit) :
    StakeEntry t userId pid amount price p :=
  ⟨h.amount_pos, h.price_nonneg, h.user, h.pool, h.active⟩

/-- Opening a stake from `s`, exit by exit, in the order the ledger checks. It saves the stake
once the entry checks pass, the capacity check answers yes and the term ends in the clock's
range. A refusal comes from a failed entry check, and is then no capacity refusal, or from the
capacity check answering no, with the room left. An overflow comes past the entry checks: from
the principal, the capacity check, the room left or the term's end. Neither touches the tables. -/
def Post.stakeExits (s : RunState) (userId pid : Nat) (amount price : Decimal) : Post Stake :=
  ⟨fun st s' => ∃ p principal, StakeEntry s.tables userId pid amount price p ∧
      activePrincipal (s.tables.stakesOf pid) = .ok principal ∧
      fitsCapacity principal amount p.reserve = .ok true ∧
      (Stake.termEnd s.clock p.periodDays).inRange = true ∧
      let saved := s.tables.saveStake (Stake.opening userId pid amount price p.periodDays s.clock)
      st = saved.1 ∧ saved.2.Logged s'.tables,
    fun e s' => s'.tables = s.tables ∧
      (((∀ p, ¬ StakeEntry s.tables userId pid amount price p) ∧
          ∀ pid' requested available, e ≠ .capacityExceeded pid' requested available) ∨
        ∃ p principal available, StakeEntry s.tables userId pid amount price p ∧
          activePrincipal (s.tables.stakesOf pid) = .ok principal ∧
          fitsCapacity principal amount p.reserve = .ok false ∧
          capacityLeft principal p.reserve = .ok available ∧
          e = .capacityExceeded pid amount available),
    fun o s' => s'.tables = s.tables ∧ ∃ p, StakeEntry s.tables userId pid amount price p ∧
      (activePrincipal (s.tables.stakesOf pid) = .error o ∨
        ∃ principal, activePrincipal (s.tables.stakesOf pid) = .ok principal ∧
          (fitsCapacity principal amount p.reserve = .error o ∨
            (fitsCapacity principal amount p.reserve = .ok false ∧
              capacityLeft principal p.reserve = .error o) ∨
            (fitsCapacity principal amount p.reserve = .ok true ∧
              Stake.termEnd? s.clock p.periodDays = .error o)))⟩

section Exits

variable {s : RunState} {userId pid : Nat} {amount price : Decimal}

/-- A refusal at an entry check. -/
theorem stakeExits_refused_entry {e : LedgerError}
    (hno : ∀ p, ¬ StakeEntry s.tables userId pid amount price p)
    (he : ∀ pid' requested available, e ≠ .capacityExceeded pid' requested available) :
    (Post.stakeExits s userId pid amount price).refused e s :=
  ⟨rfl, .inl ⟨hno, he⟩⟩

/-- An overflow past the entry checks. -/
theorem stakeExits_overflow {o : Overflow} {p : Pool}
    (hentry : StakeEntry s.tables userId pid amount price p)
    (hcase : activePrincipal (s.tables.stakesOf pid) = .error o ∨
      ∃ principal, activePrincipal (s.tables.stakesOf pid) = .ok principal ∧
        (fitsCapacity principal amount p.reserve = .error o ∨
          (fitsCapacity principal amount p.reserve = .ok false ∧
            capacityLeft principal p.reserve = .error o) ∨
          (fitsCapacity principal amount p.reserve = .ok true ∧
            Stake.termEnd? s.clock p.periodDays = .error o))) :
    (Post.stakeExits s userId pid amount price).overflow o s :=
  ⟨rfl, p, hentry, hcase⟩

end Exits

/-- Opening a stake ends at one of the exits `Post.stakeExits` lists. The cases follow the
ledger's checks one by one. -/
theorem createStake_exits (s : RunState) (userId pid : Nat) (amount price : Decimal) :
    Holds (createStake userId pid amount price) s (.stakeExits s userId pid amount price) := by
  simp only [createStake, holds_ite]
  split
  · rename_i hamount
    exact stakeExits_refused_entry (fun _ h => Decimal.not_le_iff_lt.2 h.amount_pos hamount)
      (fun _ _ _ h => LedgerError.noConfusion h)
  · rename_i hamount
    split
    · rename_i hprice
      exact stakeExits_refused_entry (fun _ h => Decimal.not_lt_iff_le.2 h.price_nonneg hprice)
        (fun _ _ _ h => LedgerError.noConfusion h)
    · rename_i hprice
      simp only [holds_bind, holds_ledgerUser]
      split
      · rename_i u hu
        simp only [holds_ledgerPool]
        split
        · rename_i p hp
          simp only [holds_ite, holds_throw, holds_bind, holds_poolStakes, holds_checked]
          split
          · rename_i hinactive
            refine stakeExits_refused_entry (fun q h => ?_)
              (fun _ _ _ h => LedgerError.noConfusion h)
            rw [Option.some.inj (hp.symm.trans h.pool), h.active] at hinactive
            exact absurd hinactive (by decide)
          · rename_i hactive
            have hentry : StakeEntry s.tables userId pid amount price p :=
              ⟨Decimal.not_le_iff_lt.1 hamount, Decimal.not_lt_iff_le.1 hprice, ⟨u, hu⟩, hp,
                by simpa using hactive⟩
            split
            · rename_i principal hprincipal
              split
              · rename_i fits hfits
                simp only [holds_logAt, holds_now, holds_saveStake, holds_recordOperation,
                  holds_pure]
                split
                · -- no room: the room left is reported, when it is computed
                  rename_i hroom
                  have hno : fitsCapacity principal amount p.reserve = .ok false := by
                    simpa using (show fits = false by simpa using hroom) ▸ hfits
                  split
                  · rename_i available hleft
                    exact ⟨rfl,
                      .inr ⟨p, principal, available, hentry, hprincipal, hno, hleft, rfl⟩⟩
                  · rename_i o hleft
                    exact stakeExits_overflow hentry
                      (.inr ⟨principal, hprincipal, .inr (.inl ⟨hno, hleft⟩)⟩)
                · rename_i hroom
                  have hyes : fitsCapacity principal amount p.reserve = .ok true := by
                    simpa using (show fits = true by simpa using hroom) ▸ hfits
                  split
                  · -- the term ends in range: the stake is saved and the operation recorded
                    rename_i e hend
                    have hin := Stake.termEnd?_eq_ok_iff.1 ⟨e, hend⟩
                    cases Stake.termEnd?_eq_ok hend
                    exact ⟨p, principal, hentry, hprincipal, hyes, hin, rfl,
                      MemoryTables.logged_appendOperation _ _ _ _ _⟩
                  · rename_i o hend
                    exact stakeExits_overflow hentry
                      (.inr ⟨principal, hprincipal, .inr (.inr ⟨hyes, hend⟩)⟩)
              · rename_i o hfits
                exact stakeExits_overflow hentry (.inr ⟨principal, hprincipal, .inl hfits⟩)
            · rename_i o hprincipal
              exact stakeExits_overflow hentry (.inl hprincipal)
        · rename_i hp
          refine stakeExits_refused_entry (fun _ h => ?_)
            (fun _ _ _ h => LedgerError.noConfusion h)
          rw [h.pool] at hp
          cases hp
      · rename_i hu
        refine stakeExits_refused_entry (fun _ h => ?_)
          (fun _ _ _ h => LedgerError.noConfusion h)
        obtain ⟨u, hu'⟩ := h.user
        rw [hu'] at hu
        cases hu

/-! ## What opening a stake ends in -/

/-- A refusal for want of room names the pool and the amount asked for, and reports the room
left under the capacity, floored at zero; other refusals report no room. -/
def RoomReported (t : MemoryTables) (pid : Nat) (amount : Decimal) : LedgerError → Prop
  | .capacityExceeded pid' requested available =>
    pid' = pid ∧ requested = amount ∧ ∃ p principal limit room, t.findPool pid = some p ∧
      activePrincipal (t.stakesOf pid) = .ok principal ∧ capacityLimit p.reserve = .ok limit ∧
      limit.sub principal = .ok room ∧ available = room.max Decimal.zero
  | _ => True

/-- What opening a stake from `s` may end in: the stake the store saved, once every check
passed; otherwise the tables as they were, with no check passed, and the room reported. -/
def Post.openingStake (s : RunState) (userId pid : Nat) (amount price : Decimal) : Post Stake :=
  ⟨fun st s' => ∃ p principal total limit,
      StakeAdmitted s.tables s.clock userId pid amount price p principal total limit ∧
      let saved := s.tables.saveStake (Stake.opening userId pid amount price p.periodDays s.clock)
      st = saved.1 ∧ saved.2.Logged s'.tables,
    fun e s' => s'.tables = s.tables ∧ ¬ StakeOpens s.tables s.clock userId pid amount price ∧
      RoomReported s.tables pid amount e,
    fun _ s' => s'.tables = s.tables ∧ ¬ StakeOpens s.tables s.clock userId pid amount price⟩

/-- Every refusal but a capacity refusal reports no room. -/
theorem roomReported_of_ne {t : MemoryTables} {pid : Nat} {amount : Decimal} {e : LedgerError}
    (he : ∀ pid' requested available, e ≠ .capacityExceeded pid' requested available) :
    RoomReported t pid amount e := by
  cases e with
  | capacityExceeded pid' requested available => exact absurd rfl (he pid' requested available)
  | _ => trivial

/-- An admitted stake passes the capacity check at the pool and principal the tables give. -/
theorem StakeAdmitted.fits_at {t : MemoryTables} {now : Instant} {userId pid : Nat}
    {amount price : Decimal} {p : Pool} {principal total limit : Decimal}
    (h : StakeAdmitted t now userId pid amount price p principal total limit) {q : Pool}
    {principal' : Decimal} (hq : t.findPool pid = some q)
    (hprincipal : activePrincipal (t.stakesOf pid) = .ok principal') :
    fitsCapacity principal' amount q.reserve = .ok true := by
  rw [h.pool_eq hq, h.principal_eq hprincipal]
  exact fitsCapacity_eq_ok_true.2 ⟨total, limit, h.total_ok, h.limit_ok, h.fits⟩

/-- Opening a stake saves it exactly when every check passes, and otherwise writes nothing:
read off its exits. -/
theorem createStake_opening (s : RunState) (userId pid : Nat) (amount price : Decimal) :
    Holds (createStake userId pid amount price) s (.openingStake s userId pid amount price) := by
  refine (createStake_exits s userId pid amount price).mono ?_ ?_ ?_
  · -- the capacity check's sum and limit are those the stake is admitted with
    rintro st s' ⟨p, principal, hentry, hprincipal, hyes, hin, hst, hl⟩
    obtain ⟨total, limit, htotal, hlimit, hlt⟩ := fitsCapacity_eq_ok_true.1 hyes
    exact ⟨p, principal, total, limit, ⟨hentry.amount_pos, hentry.price_nonneg, hentry.user,
      hentry.pool, hentry.active, hprincipal, htotal, hlimit, hlt, hin⟩, hst, hl⟩
  · rintro e s' ⟨hsame, ⟨hno, he⟩ | ⟨p, principal, available, hentry, hprincipal, hfull, hleft, rfl⟩⟩
    · refine ⟨hsame, ?_, roomReported_of_ne he⟩
      rintro ⟨q, _, _, _, h⟩
      exact hno q h.entry
    · -- a refusal for want of room, and the room it reports
      obtain ⟨limit, room, hlimit, hsub, hmax⟩ := capacityLeft_eq_ok hleft
      refine ⟨hsame, ?_, rfl, rfl, p, principal, limit, room, hentry.pool, hprincipal, hlimit,
        hsub, hmax⟩
      rintro ⟨_, _, _, _, h⟩
      rw [h.fits_at hentry.pool hprincipal] at hfull
      cases hfull
  · -- every overflow contradicts a check an admitted stake passes
    rintro o s' ⟨hsame, p, hentry, hcase⟩
    refine ⟨hsame, ?_⟩
    rintro ⟨_, _, _, _, h⟩
    rcases hcase with hprincipal | ⟨principal, hprincipal, hfits | ⟨hfull, -⟩ | ⟨-, hend⟩⟩
    · rw [h.principal_ok] at hprincipal
      cases hprincipal
    · rw [h.fits_at hentry.pool hprincipal] at hfits
      cases hfits
    · rw [h.fits_at hentry.pool hprincipal] at hfull
      cases hfull
    · have hin := h.term
      rw [← h.pool_eq hentry.pool, ← Stake.termEnd?_eq_ok_iff] at hin
      obtain ⟨e, he⟩ := hin
      rw [he] at hend
      cases hend

/-! ## From every reachable state -/

/-- Every reachable store lists its stakes by ascending id. -/
theorem RunState.Reachable.sorted {s : RunState} (h : s.Reachable) : s.tables.Sorted :=
  RunState.Reachable.invariant (I := fun s => s.tables.Sorted) (fun _ _ => List.Pairwise.nil)
    (fun _ _ _ _ h hs => hs.sorted h) h

section Exec

variable {op : LedgerOp} {s : RunState} {Q : Post Unit}

theorem LedgerOp.ok_of_holds (h : Holds op.action s Q) (hok : (op.exec s).1 = .ok (.ok ())) :
    Q.ok () (op.exec s).2 := by
  unfold Holds at h
  unfold LedgerOp.exec at hok ⊢
  split at h <;> rename_i heq <;> rw [heq] at hok ⊢ <;> cases hok
  exact h

theorem LedgerOp.overflow_of_holds (h : Holds op.action s Q) {o : Overflow}
    (ho : (op.exec s).1 = .error o) : Q.overflow o (op.exec s).2 := by
  unfold Holds at h
  unfold LedgerOp.exec at ho ⊢
  split at h <;> rename_i heq <;> rw [heq] at ho ⊢ <;> cases ho
  exact h

end Exec

/-- From every reachable state, opening a stake succeeds exactly when every check passes
(`StakeOpens`). The stake is then stored under the next id, and its pool's active principal
is the sum the check computed, still below the tenth of the reserve. A refusal for want of
room reports the room left, floored at zero; and every outcome but success leaves the tables,
stakes and operation records included, as they were. -/
theorem stake_opens_within_capacity {s : RunState} (hs : s.Reachable) (userId pid : Nat)
    (amount price : Decimal) :
    let r := (LedgerOp.createStake userId pid amount price).exec s
    (r.1 = .ok (.ok ()) ↔ StakeOpens s.tables s.clock userId pid amount price) ∧
    (r.1 = .ok (.ok ()) → ∃ p principal total limit,
      StakeAdmitted s.tables s.clock userId pid amount price p principal total limit ∧
      r.2.tables.findStake (s.tables.lastId + 1) =
        some { Stake.opening userId pid amount price p.periodDays s.clock with
          id := s.tables.lastId + 1 } ∧
      r.2.tables.findPool pid = some p ∧
      activePrincipal (r.2.tables.stakesOf pid) = .ok total ∧ total < limit) ∧
    (∀ e, r.1 = .ok (.error e) → RoomReported s.tables pid amount e) ∧
    (r.1 ≠ .ok (.ok ()) → r.2.tables = s.tables) := by
  intro r
  -- the answer is dropped; what is kept of a success is the checks and the writes
  have hspec : Holds (LedgerOp.createStake userId pid amount price).action s
      ⟨fun _ s' => ∃ p principal total limit,
        StakeAdmitted s.tables s.clock userId pid amount price p principal total limit ∧
        (s.tables.saveStake (Stake.opening userId pid amount price p.periodDays s.clock)).2.Logged
          s'.tables,
      (Post.openingStake s userId pid amount price).refused,
      (Post.openingStake s userId pid amount price).overflow⟩ :=
    holds_discard.mpr ((createStake_opening s userId pid amount price).mono
      (fun _ _ ⟨p, principal, total, limit, h, _, hl⟩ => ⟨p, principal, total, limit, h, hl⟩)
      (fun _ _ h => h) (fun _ _ h => h))
  rcases hr : r.1 with o | e | ⟨⟩
  · obtain ⟨hsame, hno⟩ := LedgerOp.overflow_of_holds hspec hr
    refine ⟨⟨fun h => (nomatch h), fun h => absurd h hno⟩, fun h => (nomatch h),
      fun _ h => (nomatch h), fun _ => hsame⟩
  · obtain ⟨hsame, hno, hroom⟩ := LedgerOp.refused_of_holds hspec hr
    refine ⟨⟨fun h => (nomatch h), fun h => absurd h hno⟩, fun h => (nomatch h),
      fun e' he => ?_, fun _ => hsame⟩
    cases he
    exact hroom
  · obtain ⟨p, principal, total, limit, h, hl⟩ := LedgerOp.ok_of_holds hspec hr
    obtain ⟨hstake, hpool, hprincipal⟩ := h.opened hs.fresh hs.sorted hl
    exact ⟨⟨fun _ => ⟨p, principal, total, limit, h⟩, fun _ => rfl⟩,
      fun _ => ⟨p, principal, total, limit, h, hstake, hpool, hprincipal, h.fits⟩,
      fun _ he => (nomatch he), fun hne => absurd rfl hne⟩

theorem roundingReserve_mantissa_lt : 10000000000000000000000000001 < mantissaBound := by
  decide

/-- A reserve of one and one unit in the 28th place: its tenth needs 29 places, and rounds
down to 0.1. -/
def roundingReserve : Decimal :=
  ⟨10000000000000000000000000001, 28, false, roundingReserve_mantissa_lt, Nat.le_refl 28⟩

/-- Two users, and a pool of that reserve whose commission is paid and which is active. -/
def roundingRun : List LedgerOp :=
  [.registerUser "0:owner", .registerUser "0:staker",
    .createPool ⟨1, roundingReserve, "0:master", "0:deposit", Decimal.one, 1, Decimal.zero⟩,
    .payCommission 3 (Decimal.ofNat 5) (Decimal.ofNat 5), .setActive 3 true]

/-- The state that run reaches from the empty store. -/
def roundingState : RunState :=
  (RunState.start ⟨fun _ _ => none, fun _ _ => none, fun _ _ => none⟩ ⟨0, 0⟩).runOps roundingRun

/-- Staking 0.1 in that pool: its principal 0.1 lies below the exact tenth of the reserve,
0.10000000000000000000000000001, but not below the rounded one, so no check admits it. -/
theorem stake_opens_within_capacity_past_rounding :
    let s := roundingState
    let r := (LedgerOp.createStake 2 3 Decimal.capacityRatio Decimal.one).exec s
    (r.1 = .ok (.ok ()) ↔ StakeOpens s.tables s.clock 2 3 Decimal.capacityRatio Decimal.one) ∧
    (r.1 = .ok (.ok ()) → ∃ p principal total limit,
      StakeAdmitted s.tables s.clock 2 3 Decimal.capacityRatio Decimal.one p principal total limit ∧
      r.2.tables.findStake (s.tables.lastId + 1) =
        some { Stake.opening 2 3 Decimal.capacityRatio Decimal.one p.periodDays s.clock with
          id := s.tables.lastId + 1 } ∧
      r.2.tables.findPool 3 = some p ∧
      activePrincipal (r.2.tables.stakesOf 3) = .ok total ∧ total < limit) ∧
    (∀ e, r.1 = .ok (.error e) → RoomReported s.tables 3 Decimal.capacityRatio e) ∧
    (r.1 ≠ .ok (.ok ()) → r.2.tables = s.tables) :=
  stake_opens_within_capacity ⟨_, _, roundingRun, rfl⟩ 2 3 Decimal.capacityRatio Decimal.one

example : (capacityLimit roundingReserve).toOption =
    Decimal.ofParts? 1000000000000000000000000000 28 false := by
  decide

example : ((LedgerOp.createStake 2 3 Decimal.capacityRatio Decimal.one).exec roundingState).1.toOption =
    (Decimal.ofParts? 1000000000000000000000000000 28 false).map
      fun room => .error (.capacityExceeded 3 Decimal.capacityRatio room) := by
  decide

end PoolTreasury
