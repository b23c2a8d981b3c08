import PoolTreasury.Proofs.Ledger.Capacity
import PoolTreasury.Proofs.Decimal.Range

/-! # The active principal, and where opening a stake overflows

A pool's active principal is the sum of the amounts of its active stakes, in the order of
their ids (`MemoryTables.activeAmounts`). Every step either drops some of those amounts, by
closing a stake, or opens a stake whose amount the capacity check has just added to the sum.
Amounts are positive, so a sum over part of a list is computed whenever the whole sum is
(`Decimal.foldlM_add_sublist`), and in every reachable state every pool's active principal
is computed (`RunState.Reachable.principalsFit`).

Opening a stake computes that principal, adds the amount, takes a tenth of the reserve, and,
when there is no room, the room left. Only the addition can leave the decimal range: the
principal is computed, a tenth of a decimal always is, and so is a difference of two
decimals that are not negative. After the capacity check, the term end may fall past the
clock's range. These two are the only overflows (`stake_overflows_only_past_range`), and
both are reached by arguments every check admits.
-/

namespace PoolTreasury

/-! ## Rewriting one record of an ordered list -/

section Upsert

variable {α β : Type} (key : α → Nat)

/-- Rewriting a record of a list ordered by key with one that a filter keeps only where it
kept the old one, and then with the same image, leaves the image of what the filter keeps a
sublist of what it was. -/
theorem map_filter_upsertBy_sublist {P : α → Bool} {f : α → β} {x y : α} {l : List α}
    (hl : l.Pairwise (fun a b => key a < key b)) (hy : y ∈ l) (hkey : key y = key x)
    (hx : P x = true → P y = true ∧ f x = f y) :
    ((upsertBy key x l).filter P).map f |>.Sublist ((l.filter P).map f) := by
  induction l with
  | nil => cases hy
  | cons z zs ih =>
    rw [List.pairwise_cons] at hl
    -- `y` is `z` or lies past it, with a larger key
    have hyz : y = z ∨ (y ∈ zs ∧ key z < key y) := by
      rcases List.mem_cons.1 hy with rfl | hy'
      · exact .inl rfl
      · exact .inr ⟨hy', hl.1 y hy'⟩
    unfold upsertBy
    split
    · -- `x` would go in front of `z`, below the key `y` has
      rename_i hlt
      rcases hyz with rfl | ⟨_, hzy⟩ <;> omega
    · split
      · -- `x` takes the place of `z`, which is `y`
        rename_i _ heq
        obtain rfl : y = z := hyz.resolve_right fun h => by have := h.2; omega
        by_cases hpx : P x = true
        · obtain ⟨hpy, hfxy⟩ := hx hpx
          simp [hpx, hpy, hfxy]
        · have hpx' : P x = false := by simpa using hpx
          simp only [List.filter_cons, hpx', Bool.false_eq_true, if_false]
          split <;> simp
      · -- `x` goes further on, past `z`
        rename_i _ hne
        obtain ⟨hy', -⟩ := hyz.resolve_left fun h => hne (h ▸ hkey).symm
        have hsub := ih hl.2 hy'
        simp only [List.filter_cons]
        split
        · exact hsub.cons_cons _
        · exact hsub

end Upsert

/-! ## The amounts a pool's active principal sums -/

namespace MemoryTables

variable {t t' : MemoryTables}

/-- The amounts of a pool's active stakes, in the order of their ids. -/
def activeAmounts (t : MemoryTables) (pid : Nat) : List Decimal :=
  ((t.stakesOf pid).filter (·.isActive)).map (·.amount)

theorem activePrincipal_stakesOf (t : MemoryTables) (pid : Nat) :
    activePrincipal (t.stakesOf pid) = (t.activeAmounts pid).foldlM Decimal.add Decimal.zero :=
  rfl

theorem activeAmounts_eq (t : MemoryTables) (pid : Nat) :
    t.activeAmounts pid =
      (t.stakes.filter fun st => st.isActive && st.poolId == pid).map (·.amount) := by
  unfold activeAmounts stakesOf
  rw [List.filter_filter]

theorem activeAmounts_of_stakes (h : t'.stakes = t.stakes) (pid : Nat) :
    t'.activeAmounts pid = t.activeAmounts pid := by
  unfold activeAmounts stakesOf
  rw [h]

/-- Every amount summed is the amount of a stake of the tables. -/
theorem mem_activeAmounts {pid : Nat} {a : Decimal} (h : a ∈ t.activeAmounts pid) :
    ∃ st ∈ t.stakes, st.amount = a := by
  rw [activeAmounts_eq] at h
  obtain ⟨st, hst, rfl⟩ := List.mem_map.1 h
  exact ⟨st, (List.mem_filter.1 hst).1, rfl⟩

/-- Rewriting a stake that is there, in its own pool, with its own amount, and active only if
it was, leaves every pool's active amounts a sublist of what they were. -/
theorem activeAmounts_upsert_sublist (hs : t.Sorted) (q : Stake) {prev : Stake}
    (hprev : t.findStake q.id = some prev) (hpool : q.poolId = prev.poolId)
    (hamount : q.amount = prev.amount) (hactive : q.isActive = true → prev.isActive = true)
    (hstakes : t'.stakes = upsertBy (·.id) q t.stakes) (pid : Nat) :
    (t'.activeAmounts pid).Sublist (t.activeAmounts pid) := by
  rw [activeAmounts_eq, activeAmounts_eq, hstakes]
  refine map_filter_upsertBy_sublist Stake.id hs (List.mem_of_find?_eq_some hprev)
    (t.findStake_id hprev) fun hq => ?_
  simp only [Bool.and_eq_true, beq_iff_eq] at hq ⊢
  exact ⟨⟨hactive hq.1, hpool ▸ hq.2⟩, hamount⟩

/-- Saving a stake appends it, so its amount is appended to its pool's active amounts when it
is active, and every other pool's stay as they were. -/
theorem activeAmounts_saveStake (hf : t.Fresh) (hs : t.Sorted) (st : Stake) (pid : Nat) :
    (t.saveStake st).2.activeAmounts pid =
      t.activeAmounts pid ++ if st.isActive && st.poolId == pid then [st.amount] else [] := by
  rw [activeAmounts_eq, activeAmounts_eq, stakes_saveStake_append hf hs, List.filter_append,
    List.map_append, saveStake_fst]
  congr 1
  simp only [List.filter_cons, List.filter_nil]
  split <;> rfl

/-! ## Every pool's active principal is computed -/

/-- Every pool's active principal is computed without overflow. -/
def PrincipalsFit (t : MemoryTables) : Prop :=
  ∀ pid, ∃ principal, activePrincipal (t.stakesOf pid) = .ok principal

theorem principalsFit_empty : PrincipalsFit {} := fun _ => ⟨Decimal.zero, rfl⟩

theorem PrincipalsFit.of_stakes (h : t.PrincipalsFit) (heq : t'.stakes = t.stakes) :
    t'.PrincipalsFit := fun pid => by
  rw [activePrincipal_stakesOf, activeAmounts_of_stakes heq]
  exact h pid

/-- Dropping amounts that are not negative keeps every principal computed. -/
theorem PrincipalsFit.of_sublist (h : t.PrincipalsFit)
    (hpos : ∀ st ∈ t.stakes, 0 ≤ st.amount.value)
    (hsub : ∀ pid, (t'.activeAmounts pid).Sublist (t.activeAmounts pid)) : t'.PrincipalsFit := by
  intro pid
  obtain ⟨y, hy⟩ := h pid
  have hl : ∀ a ∈ t.activeAmounts pid, 0 ≤ a.value := fun a ha => by
    obtain ⟨st, hst, rfl⟩ := mem_activeAmounts ha
    exact hpos st hst
  have hzero : 0 ≤ Decimal.zero.value := Decimal.value_zero ▸ le_rfl
  obtain ⟨x, hx, -⟩ := Decimal.foldlM_add_sublist (hsub pid) hl hzero le_rfl hy
  exact ⟨x, hx⟩

/-- The principals of tables whose stakes all have amounts that are not negative are not
negative. -/
theorem activePrincipal_nonneg (hpos : ∀ st ∈ t.stakes, 0 ≤ st.amount.value) {pid : Nat}
    {principal : Decimal} (h : activePrincipal (t.stakesOf pid) = .ok principal) :
    0 ≤ principal.value := by
  rw [activePrincipal_stakesOf] at h
  refine Decimal.foldlM_add_nonneg (fun a ha => ?_) (Decimal.value_zero ▸ le_rfl) h
  obtain ⟨st, hst, rfl⟩ := mem_activeAmounts ha
  exact hpos st hst

end MemoryTables

open MemoryTables

/-- Tables whose stakes are each found under their id, with positive amounts, have amounts
that are not negative. -/
theorem MemoryTables.AccrualSound.amounts_nonneg {t : MemoryTables} (ha : t.AccrualSound)
    (hs : t.Sorted) : ∀ st ∈ t.stakes, 0 ≤ st.amount.value :=
  fun _ hst => (ha.principal (hs.findStake_of_mem hst)).le

/-- A write of the accrual pass accrues a day, closes a stake, refreshes a pool or logs: none
adds an active amount. -/
theorem TickWrite.activeAmounts_sublist {now : Instant} {x : Stake} {t t' : MemoryTables}
    (hw : TickWrite now x t t') (hs : t.Sorted) (pid : Nat) :
    (t'.activeAmounts pid).Sublist (t.activeAmounts pid) := by
  cases hw with
  | @accrue st _ next _ hst _ _ _ =>
    have hfound : t.findStake ({ st with balance := next } : Stake).id = some st :=
      t.findStake_self hst
    exact activeAmounts_upsert_sublist hs _ hfound rfl rfl id (stakes_updateStake hfound) pid
  | @close st _ price _ hst _ _ =>
    have hfound : t.findStake (st.closedAt now price).id = some st := t.findStake_self hst
    exact activeAmounts_upsert_sublist hs _ hfound rfl rfl (fun h => by cases h)
      (stakes_updateStake hfound) pid
  | refresh _ _ => exact (activeAmounts_of_stakes (stakes_updatePool _) pid).symm ▸ .refl _
  | note hl => exact (activeAmounts_of_stakes (t.stakes_of_logged hl) pid).symm ▸ .refl _

section Step

variable {op : LedgerOp} {s s' : RunState} {r : Outcome}

/-- Every step keeps every pool's active principal computed: it drops amounts, or it opens a
stake whose amount the capacity check added to the principal. -/
theorem OpStep.principalsFit (hs : OpStep op s r s') (hf : s.tables.Fresh)
    (hsorted : s.tables.Sorted) (ha : s.tables.AccrualSound) (h : s.tables.PrincipalsFit) :
    s'.tables.PrincipalsFit := by
  cases hs with
  | quiet ht _ | claimSent _ ht _ => exact ht ▸ h
  | registerUser ht _ => exact h.of_stakes (by rw [ht, stakes_saveUser])
  | createPool _ _ hl _ => exact h.of_stakes (by rw [stakes_of_logged _ hl, stakes_savePool])
  | addReserve _ _ _ _ hl _ | payCommission _ _ _ hl _ | setActive _ _ hl _ | withdraw _ hl _ =>
    exact h.of_stakes (by rw [stakes_of_logged _ hl, stakes_updatePool])
  | deletePool _ _ _ _ hl _ => exact h.of_stakes (by rw [stakes_of_logged _ hl, stakes_deletePool])
  | @createStake userId pid amount price _ _ _ _ p principal _ _ _ _ _ hprincipal hfits hl _ =>
    intro k
    rw [activePrincipal_stakesOf, activeAmounts_of_stakes (stakes_of_logged _ hl),
      activeAmounts_saveStake hf hsorted]
    by_cases hk : pid = k
    · -- the opened pool: the new amount is the one the capacity check added
      subst hk
      obtain ⟨total, -, htotal, -, -⟩ := fitsCapacity_eq_ok_true.1 hfits
      refine ⟨total, ?_⟩
      simp only [Stake.opening, Bool.true_and, beq_self_eq_true, if_true, List.foldlM_append]
      rw [← activePrincipal_stakesOf, hprincipal]
      exact bind_pure (principal.add amount) ▸ htotal
    · have hne : (Stake.opening userId pid amount price p.periodDays s.clock).poolId ≠ k := hk
      simp only [Stake.opening, Bool.true_and, beq_iff_eq, hk, if_false, List.append_nil]
      exact h k
  | tick hr _ =>
    -- along the pass, the tables stay ordered and each pool's amounts only lose members
    have hpass := hr.invariant
      (P := fun t₁ => t₁.Sorted ∧ ∀ pid, (t₁.activeAmounts pid).Sublist (s.tables.activeAmounts pid))
      (fun _ hw hP => ⟨hw.sorted hP.1, fun pid => (hw.activeAmounts_sublist hP.1 pid).trans (hP.2 pid)⟩)
      ⟨hsorted, fun _ => .refl _⟩
    exact h.of_sublist (ha.amounts_nonneg hsorted) hpass.2
  | claimSettled hc _ _ hl _ =>
    -- a paid stake keeps its pool, its amount and its activity
    refine h.of_sublist (ha.amounts_nonneg hsorted) fun pid => ?_
    refine activeAmounts_upsert_sublist hsorted _ hc.findStake_paid (by cases ‹ClaimKind› <;> rfl)
      (by cases ‹ClaimKind› <;> rfl) (by cases ‹ClaimKind› <;> exact id) ?_ pid
    rw [stakes_of_logged _ hl]
    exact stakes_settleClaim hc.findStake_paid (s.tables.findPool_self hc.pool :)

end Step

/-- In every reachable state every pool's active principal is computed. -/
theorem RunState.Reachable.principalsFit {s : RunState} (h : s.Reachable) :
    s.tables.PrincipalsFit := by
  obtain ⟨-, -, -, hfit⟩ := RunState.Reachable.invariant
    (I := fun s => s.tables.Fresh ∧ s.tables.Sorted ∧ s.tables.AccrualSound ∧
      s.tables.PrincipalsFit)
    (fun _ _ => ⟨fresh_empty, List.Pairwise.nil, accrualSound_empty, principalsFit_empty⟩)
    (fun _ _ _ _ h hs => ⟨hs.fresh h.1, hs.sorted h.2.1, hs.accrualSound h.1 h.2.2.1,
      hs.principalsFit h.1 h.2.1 h.2.2.1 h.2.2.2⟩) h
  exact hfit

/-! ## The capacity check's arithmetic -/

/-- A tenth of a reserve is always computed. -/
theorem capacityLimit_ok (reserve : Decimal) : ∃ limit, capacityLimit reserve = .ok limit := by
  obtain ⟨limit, h⟩ := Option.isSome_iff_exists.1 (Decimal.mul?_capacityRatio_isSome reserve)
  exact ⟨limit, Decimal.orOverflow_eq_ok.mpr h⟩

theorem capacityLimit_nonneg {reserve limit : Decimal} (hr : 0 ≤ reserve.value)
    (h : capacityLimit reserve = .ok limit) : 0 ≤ limit.value :=
  Decimal.mul_nonneg hr ((Decimal.value_nonneg_iff _).2 (.inl rfl)) h

/-- The room left under the capacity is always computed while the reserve and the principal
are not negative. -/
theorem capacityLeft_ok {principal reserve : Decimal} (hp : 0 ≤ principal.value)
    (hr : 0 ≤ reserve.value) : ∃ room, capacityLeft principal reserve = .ok room := by
  obtain ⟨limit, hlimit⟩ := capacityLimit_ok reserve
  obtain ⟨room, hroom⟩ :=
    Option.isSome_iff_exists.1 (Decimal.sub?_isSome (capacityLimit_nonneg hr hlimit) hp)
  exact ⟨room.max Decimal.zero,
    bind_eq_ok_iff.2 ⟨limit, hlimit, bind_eq_ok_iff.2 ⟨room, Decimal.orOverflow_eq_ok.mpr hroom, rfl⟩⟩⟩

/-- The capacity check overflows exactly where the sum does. -/
theorem fitsCapacity_eq_error {principal amount reserve : Decimal} {o : Overflow} :
    fitsCapacity principal amount reserve = .error o ↔ principal.add amount = .error o := by
  obtain ⟨limit, hlimit⟩ := capacityLimit_ok reserve
  unfold fitsCapacity
  cases principal.add amount with
  | error e => simp [bind, Except.bind]
  | ok total => simp [bind, Except.bind, hlimit, pure, Except.pure]

/-- A term end is refused only past the clock's range, and then as an overflowed date. -/
theorem Stake.termEnd?_eq_error {start : Instant} {days : Nat} {o : Overflow}
    (h : Stake.termEnd? start days = .error o) :
    (Stake.termEnd start days).inRange = false ∧ o = .dateAddition := by
  unfold Stake.termEnd? at h
  split at h
  · cases h
  · rename_i hout
    cases h
    exact ⟨by simpa using hout, rfl⟩

/-! ## Where opening a stake overflows -/

/-- Where opening a stake at time `now` against the tables `t` overflows: every check before
the capacity check passes, and either the active principal plus the amount is past the decimal
range (`o` is that addition's overflow), or the stake fits under the capacity but its term
ends past the clock's range. -/
def StakeOverflows (t : MemoryTables) (now : Instant) (userId pid : Nat) (amount price : Decimal)
    (o : Overflow) : Prop :=
  Decimal.zero < amount ∧ Decimal.zero ≤ price ∧ (∃ u, t.findUser userId = some u) ∧
    ∃ p principal, t.findPool pid = some p ∧ p.isActive = true ∧
      activePrincipal (t.stakesOf pid) = .ok principal ∧
      (principal.add amount = .error o ∨
        ∃ total limit, principal.add amount = .ok total ∧ capacityLimit p.reserve = .ok limit ∧
          total < limit ∧ (Stake.termEnd now p.periodDays).inRange = false ∧ o = .dateAddition)

namespace StakeOverflows

variable {t : MemoryTables} {now : Instant} {userId pid : Nat} {amount price : Decimal}
  {o : Overflow}

/-- Read at the pool and principal the tables give. -/
theorem at_pool (h : StakeOverflows t now userId pid amount price o) {p : Pool}
    {principal : Decimal} (hp : t.findPool pid = some p)
    (hprincipal : activePrincipal (t.stakesOf pid) = .ok principal) :
    p.isActive = true ∧ (principal.add amount = .error o ∨
      ∃ total limit, principal.add amount = .ok total ∧ capacityLimit p.reserve = .ok limit ∧
        total < limit ∧ (Stake.termEnd now p.periodDays).inRange = false ∧ o = .dateAddition) := by
  obtain ⟨-, -, -, q, principal', hq, hactive, hprincipal', hcase⟩ := h
  obtain rfl : q = p := Option.some.inj (hq.symm.trans hp)
  obtain rfl : principal' = principal := Except.ok.inj (hprincipal'.symm.trans hprincipal)
  exact ⟨hactive, hcase⟩

/-- The overflow is determined: the sum's, or the date's. -/
theorem unique (h : StakeOverflows t now userId pid amount price o) {o' : Overflow}
    (h' : StakeOverflows t now userId pid amount price o') : o = o' := by
  obtain ⟨-, -, -, p, principal, hp, -, hprincipal, hcase⟩ := h
  obtain ⟨-, hcase'⟩ := h'.at_pool hp hprincipal
  rcases hcase with hadd | ⟨total, -, htotal, -, -, -, rfl⟩ <;>
    rcases hcase' with hadd' | ⟨total', -, htotal', -, -, -, rfl⟩
  · exact Except.error.inj (hadd.symm.trans hadd')
  · rw [hadd] at htotal'
    cases htotal'
  · rw [htotal] at hadd'
    cases hadd'
  · rfl

/-- Its entry checks pass. -/
theorem entry (h : StakeOverflows t now userId pid amount price o) :
    ∃ p, StakeEntry t userId pid amount price p := by
  obtain ⟨hamount, hprice, huser, p, -, hp, hactive, -⟩ := h
  exact ⟨p, hamount, hprice, huser, hp, hactive⟩

/-- Read at the pool and principal the tables give, the overflow is the capacity check's own,
or comes past a capacity check that said yes, from a term ending out of range. -/
theorem fits_at (h : StakeOverflows t now userId pid amount price o) {p : Pool}
    {principal : Decimal} (hp : t.findPool pid = some p)
    (hprincipal : activePrincipal (t.stakesOf pid) = .ok principal) :
    fitsCapacity principal amount p.reserve = .error o ∨
      (fitsCapacity principal amount p.reserve = .ok true ∧
        (Stake.termEnd now p.periodDays).inRange = false) := by
  rcases (h.at_pool hp hprincipal).2 with hadd | ⟨total, limit, htotal, hlimit, hlt, hout, -⟩
  · exact .inl (fitsCapacity_eq_error.2 hadd)
  · exact .inr ⟨fitsCapacity_eq_ok_true.2 ⟨total, limit, htotal, hlimit, hlt⟩, hout⟩

theorem of_entry {p : Pool} {principal : Decimal} (hentry : StakeEntry t userId pid amount price p)
    (hprincipal : activePrincipal (t.stakesOf pid) = .ok principal)
    (hcase : principal.add amount = .error o ∨
      ∃ total limit, principal.add amount = .ok total ∧ capacityLimit p.reserve = .ok limit ∧
        total < limit ∧ (Stake.termEnd now p.periodDays).inRange = false ∧ o = .dateAddition) :
    StakeOverflows t now userId pid amount price o :=
  ⟨hentry.amount_pos, hentry.price_nonneg, hentry.user, p, principal, hentry.pool, hentry.active,
    hprincipal, hcase⟩

end StakeOverflows

/-- What opening a stake from `s` may end in: an overflow exactly where `StakeOverflows`
says. -/
def Post.stakeOverflow (s : RunState) (userId pid : Nat) (amount price : Decimal) : Post Stake :=
  ⟨fun _ _ => ∀ o, ¬ StakeOverflows s.tables s.clock userId pid amount price o,
    fun _ _ => ∀ o, ¬ StakeOverflows s.tables s.clock userId pid amount price o,
    fun o _ => StakeOverflows s.tables s.clock userId pid amount price o⟩

/-- Opening a stake overflows exactly where `StakeOverflows` says, when the pool's principal
is computed and not negative and its reserve is not negative: read off its exits. -/
theorem createStake_overflows (s : RunState) (userId pid : Nat) (amount price : Decimal)
    (hfit : ∃ principal, activePrincipal (s.tables.stakesOf pid) = .ok principal)
    (hpos : ∀ principal, activePrincipal (s.tables.stakesOf pid) = .ok principal →
      0 ≤ principal.value)
    (hreserve : ∀ p, s.tables.findPool pid = some p → 0 ≤ p.reserve.value) :
    Holds (createStake userId pid amount price) s (.stakeOverflow s userId pid amount price) := by
  refine (createStake_exits s userId pid amount price).mono ?_ ?_ ?_
  · -- a saved stake passed the capacity check, and its term ends in range
    rintro _ _ ⟨p, principal, hentry, hprincipal, hyes, hin, -⟩ o h
    rcases h.fits_at hentry.pool hprincipal with hfits | ⟨-, hout⟩
    · rw [hyes] at hfits
      cases hfits
    · rw [hin] at hout
      cases hout
  · rintro _ _ ⟨-, ⟨hno, -⟩ | ⟨p, principal, -, hentry, hprincipal, hfull, -, -⟩⟩ o h
    · obtain ⟨q, hq⟩ := h.entry
      exact hno q hq
    · -- the capacity check said no, where an overflow needs it to overflow or say yes
      rcases h.fits_at hentry.pool hprincipal with hfits | ⟨hyes, -⟩
      · rw [hfull] at hfits
        cases hfits
      · rw [hfull] at hyes
        cases hyes
  · rintro o _ ⟨-, p, hentry, hcase⟩
    obtain ⟨principal, hprincipal⟩ := hfit
    rcases hcase with hprincipal' | ⟨principal', hprincipal', hcase⟩
    · -- the principal is computed
      rw [hprincipal] at hprincipal'
      cases hprincipal'
    · obtain rfl : principal = principal' := Except.ok.inj (hprincipal.symm.trans hprincipal')
      rcases hcase with hfits | ⟨-, hleft⟩ | ⟨hyes, hend⟩
      · exact StakeOverflows.of_entry hentry hprincipal (.inl (fitsCapacity_eq_error.1 hfits))
      · -- the room left is computed
        obtain ⟨room, hroom⟩ := capacityLeft_ok (hpos principal hprincipal) (hreserve p hentry.pool)
        rw [hroom] at hleft
        cases hleft
      · obtain ⟨total, limit, htotal, hlimit, hlt⟩ := fitsCapacity_eq_ok_true.1 hyes
        obtain ⟨hout, rfl⟩ := Stake.termEnd?_eq_error hend
        exact StakeOverflows.of_entry hentry hprincipal
          (.inr ⟨total, limit, htotal, hlimit, hlt, hout, rfl⟩)

/-- From every reachable state, every pool's active principal is computed, and opening a
stake overflows exactly where `StakeOverflows` says: past the checks before the capacity
check, when the active principal plus the amount leaves the decimal range, or when the stake
fits but its term ends past the clock's range. Neither the tenth of the reserve nor the room
left ever overflows. -/
theorem stake_overflows_only_past_range {s : RunState} (hs : s.Reachable) (userId pid : Nat)
    (amount price : Decimal) :
    let r := (LedgerOp.createStake userId pid amount price).exec s
    (∀ pid', ∃ principal, activePrincipal (s.tables.stakesOf pid') = .ok principal) ∧
    ∀ o, r.1 = .error o ↔ StakeOverflows s.tables s.clock userId pid amount price o := by
  intro r
  have hfit := hs.principalsFit
  have hpos := hs.accrualSound.amounts_nonneg hs.sorted
  have hspec : Holds (LedgerOp.createStake userId pid amount price).action s
      ⟨fun _ _ => ∀ o, ¬ StakeOverflows s.tables s.clock userId pid amount price o,
        fun _ _ => ∀ o, ¬ StakeOverflows s.tables s.clock userId pid amount price o,
        fun o _ => StakeOverflows s.tables s.clock userId pid amount price o⟩ :=
    holds_discard.mpr (createStake_overflows s userId pid amount price (hfit pid)
      (fun _ h => activePrincipal_nonneg hpos h) (fun _ hp => hs.noOverdraw hp))
  refine ⟨hfit, fun o => ?_⟩
  rcases hr : r.1 with o' | e | ⟨⟩
  · have h' := LedgerOp.overflow_of_holds hspec hr
    refine ⟨fun he => ?_, fun h => ?_⟩
    · cases he
      exact h'
    · rw [h'.unique h]
  · have hno := LedgerOp.refused_of_holds hspec hr
    exact ⟨fun he => (nomatch he), fun h => absurd h (hno o)⟩
  · have hno := LedgerOp.ok_of_holds hspec hr
    exact ⟨fun he => (nomatch he), fun h => absurd h (hno o)⟩

/-- Two users, and a pool of a hundred million days' term, its commission paid and active. -/
def longTermRun : List LedgerOp :=
  [.registerUser "0:owner", .registerUser "0:staker",
    .createPool ⟨1, Decimal.hundred, "0:master", "0:deposit", Decimal.one, 100000000, Decimal.zero⟩,
    .payCommission 3 (Decimal.ofNat 5) (Decimal.ofNat 5), .setActive 3 true]

/-- The state that run reaches from the empty store. -/
def longTermState : RunState :=
  (RunState.start ⟨fun _ _ => none, fun _ _ => none, fun _ _ => none⟩ ⟨0, 0⟩).runOps longTermRun

/-- Staking one in that pool passes every check, and its term would end past the clock's
range. -/
theorem stake_overflows_only_past_range_long_term :
    let s := longTermState
    let r := (LedgerOp.createStake 2 3 Decimal.one Decimal.one).exec s
    (∀ pid', ∃ principal, activePrincipal (s.tables.stakesOf pid') = .ok principal) ∧
    ∀ o, r.1 = .error o ↔ StakeOverflows s.tables s.clock 2 3 Decimal.one Decimal.one o :=
  stake_overflows_only_past_range ⟨_, _, longTermRun, rfl⟩ 2 3 Decimal.one Decimal.one

example : ((LedgerOp.createStake 2 3 Decimal.one Decimal.one).exec longTermState).1 =
    .error .dateAddition := by
  decide

end PoolTreasury
