import PoolTreasury.Proofs.Run.Step

/-! # What the accrual pass writes

The pass reads the active stakes once and handles them in that order, one turn per listed
stake. `TickWrite` lists the writes a turn may make, one at a time; `TickTurn` is what a whole
turn writes: nothing, or one day of reward, or the closing of a matured stake, then its pool's
free reserve recomputed over the pool's stakes with this one closed, then the record of the
closing. An overflow can cut a turn short after the closing or after the free reserve
(`TickCut`), and ends the pass there. A turn that is refused has written nothing, and the pass
goes on with the next stake. The oracle is the only collaborator called, and no transfer is
sent.

A matured stake is closed at its token's price, which the pass keeps in a cache for the rest
of the pass. Only a price joins the cache: a failed lookup skips the stake, and the next
matured stake of the same token asks the oracle again (`CacheStep`).

The code is walked once, in `accrualTick_cached`; that a tick is one of the steps of a run
(`accrualTick_step`) follows from it.
-/

namespace PoolTreasury

/-- The oracle answered `price` for `token` at one of its lookups numbered from `lo` up to
`hi`, `hi` excluded. -/
def Outside.Priced (o : Outside) (lo hi : Nat) (token : String) (price : Decimal) : Prop :=
  ∃ k, lo ≤ k ∧ k < hi ∧ o.price k token = some (.ok price)

theorem Outside.Priced.mono {o : Outside} {lo hi hi' : Nat} {token : String} {price : Decimal}
    (h : o.Priced lo hi token price) (hle : hi ≤ hi') : o.Priced lo hi' token price := by
  obtain ⟨k, hlo, hhi, hk⟩ := h
  exact ⟨k, hlo, Nat.lt_of_lt_of_le hhi hle, hk⟩

theorem Outside.Priced.widen {o : Outside} {lo lo' hi : Nat} {token : String} {price : Decimal}
    (h : o.Priced lo hi token price) (hle : lo' ≤ lo) : o.Priced lo' hi token price := by
  obtain ⟨k, hlo, hhi, hk⟩ := h
  exact ⟨k, Nat.le_trans hle hlo, hhi, hk⟩

/-! ## Turns -/

section Turns

variable (now : Instant) (priced : String → Decimal → Prop) (x : Stake)

/-- What the pass writes for listed stake `x` when handling it ends without an overflow.
`priced token price` says that the pass got `price` for `token` from the oracle. -/
inductive TickTurn : MemoryTables → MemoryTables → Prop
  /-- nothing: the stake was skipped, capped, gone or refused -/
  | skip {t : MemoryTables} : TickTurn t t
  /-- a day of reward for an active stake before maturity -/
  | accrue {t : MemoryTables} {st : Stake} {p : Pool} {next : Decimal} :
      x.hasMatured now = false → t.findStake x.id = some st → st.isActive = true →
      t.findPool x.poolId = some p → nextBalance p st = .ok (some next) →
      TickTurn t (t.updateStake { st with balance := next }).2
  /-- the closing of an active matured stake, its pool's free reserve, and the record -/
  | close {t t' : MemoryTables} {st : Stake} {p : Pool} {price free : Decimal} :
      x.hasMatured now = true → t.findPool x.poolId = some p → priced p.tokenMaster price →
      t.findStake x.id = some st → st.isActive = true →
      freeReserve p ((t.updateStake (st.closedAt now price)).2.stakesOf x.poolId) = .ok free →
      ((t.updateStake (st.closedAt now price)).2.updatePool
        { p with tempReserve := free }).2.Logged t' →
      TickTurn t t'

/-- What the pass writes for listed stake `x` when an overflow cuts handling it short: nothing,
the closing alone, or the closing and its pool's free reserve. -/
inductive TickCut : MemoryTables → MemoryTables → Prop
  | early {t : MemoryTables} : TickCut t t
  | closed {t : MemoryTables} {st : Stake} {p : Pool} {price : Decimal} :
      x.hasMatured now = true → t.findPool x.poolId = some p → priced p.tokenMaster price →
      t.findStake x.id = some st → st.isActive = true →
      TickCut t (t.updateStake (st.closedAt now price)).2
  | refreshed {t : MemoryTables} {st : Stake} {p : Pool} {price free : Decimal} :
      x.hasMatured now = true → t.findPool x.poolId = some p → priced p.tokenMaster price →
      t.findStake x.id = some st → st.isActive = true →
      freeReserve p ((t.updateStake (st.closedAt now price)).2.stakesOf x.poolId) = .ok free →
      TickCut t ((t.updateStake (st.closedAt now price)).2.updatePool
        { p with tempReserve := free }).2

end Turns

variable {now : Instant} {priced priced' : String → Decimal → Prop} {x : Stake}

theorem TickTurn.mono (h : ∀ token price, priced token price → priced' token price)
    {t t' : MemoryTables} (ht : TickTurn now priced x t t') : TickTurn now priced' x t t' := by
  cases ht with
  | skip => exact .skip
  | accrue hm hs ha hp hn => exact .accrue hm hs ha hp hn
  | close hm hp hpr hs ha hf hl => exact .close hm hp (h _ _ hpr) hs ha hf hl

theorem TickCut.mono (h : ∀ token price, priced token price → priced' token price)
    {t t' : MemoryTables} (ht : TickCut now priced x t t') : TickCut now priced' x t t' := by
  cases ht with
  | early => exact .early
  | closed hm hp hpr hs ha => exact .closed hm hp (h _ _ hpr) hs ha
  | refreshed hm hp hpr hs ha hf => exact .refreshed hm hp (h _ _ hpr) hs ha hf

/-- Handling a listed stake up to an overflow is a run of the pass's writes for it. -/
theorem TickCut.writes {t t' : MemoryTables} (ht : TickCut now priced x t t') :
    Relation.ReflTransGen (TickWrite now x) t t' := by
  cases ht with
  | early => exact .refl
  | closed hm hp _ hs ha => exact .single (.close hm hs ha hp)
  | refreshed hm hp _ hs ha hf =>
    -- the closing, then the pool's free reserve
    refine .tail (.single (.close hm hs ha hp)) (.refresh ?_ hf)
    rw [MemoryTables.findPool_updateStake]
    exact hp

/-- Handling a listed stake in full is a run of the pass's writes for it. -/
theorem TickTurn.writes {t t' : MemoryTables} (ht : TickTurn now priced x t t') :
    Relation.ReflTransGen (TickWrite now x) t t' := by
  cases ht with
  | skip => exact .refl
  | accrue hm hs ha hp hn => exact .single (.accrue hm hs ha hp hn)
  | close hm hp hpr hs ha hf hl =>
    -- a closing cut short after the free reserve, then the record
    exact .tail (TickCut.refreshed hm hp hpr hs ha hf).writes (.note hl)

/-- A property of the tables that every write of the pass keeps survives handling a stake. -/
theorem TickTurn.invariant {P : MemoryTables → Prop}
    (hw : ∀ {t t'}, TickWrite now x t t' → P t → P t') {t t' : MemoryTables}
    (ht : TickTurn now priced x t t') (h : P t) : P t' := by
  have hws := ht.writes
  clear ht
  induction hws with
  | refl => exact h
  | tail _ hw' ih => exact hw hw' ih

/-- The pass over the listed stakes, each handled in full. -/
inductive TickPass (now : Instant) (priced : String → Decimal → Prop) :
    List Stake → MemoryTables → MemoryTables → Prop
  | nil {t : MemoryTables} : TickPass now priced [] t t
  | cons {x : Stake} {xs : List Stake} {t t' t'' : MemoryTables} :
      TickTurn now priced x t t' → TickPass now priced xs t' t'' →
      TickPass now priced (x :: xs) t t''

/-- The pass over the listed stakes, cut short by an overflow while it handled one of them. -/
inductive TickPassCut (now : Instant) (priced : String → Decimal → Prop) :
    List Stake → MemoryTables → MemoryTables → Prop
  | here {x : Stake} {xs : List Stake} {t t' : MemoryTables} :
      TickCut now priced x t t' → TickPassCut now priced (x :: xs) t t'
  | later {x : Stake} {xs : List Stake} {t t' t'' : MemoryTables} :
      TickTurn now priced x t t' → TickPassCut now priced xs t' t'' →
      TickPassCut now priced (x :: xs) t t''

theorem TickPass.mono (h : ∀ token price, priced token price → priced' token price)
    {xs : List Stake} {t t' : MemoryTables} (hp : TickPass now priced xs t t') :
    TickPass now priced' xs t t' := by
  induction hp with
  | nil => exact .nil
  | cons hturn _ ih => exact .cons (hturn.mono h) ih

theorem TickPass.run {xs : List Stake} {t t' : MemoryTables} (hp : TickPass now priced xs t t') :
    TickRun now xs t t' := by
  induction hp with
  | nil => exact .stop
  | cons hturn _ ih => exact .next hturn.writes ih

theorem TickPassCut.run {xs : List Stake} {t t' : MemoryTables}
    (hp : TickPassCut now priced xs t t') : TickRun now xs t t' := by
  induction hp with
  | here hcut => exact .next hcut.writes .stop
  | later hturn _ ih => exact .next hturn.writes ih

/-! ## Walking the code -/

/-- `s'` follows `s` within the pass: the same collaborators and transfers, and no lookup
taken back. -/
structure RunState.PassStep (s s' : RunState) : Prop where
  outside : s'.outside = s.outside
  transfers : s'.transfers = s.transfers
  lookups : s.lookups ≤ s'.lookups

theorem RunState.PassStep.refl (s : RunState) : s.PassStep s := ⟨rfl, rfl, le_rfl⟩

theorem RunState.PassStep.trans {s s' s'' : RunState} (h : s.PassStep s') (h' : s'.PassStep s'') :
    s.PassStep s'' :=
  ⟨h'.outside.trans h.outside, h'.transfers.trans h.transfers, h.lookups.trans h'.lookups⟩

/-- A write of the tables is a step within the pass. -/
theorem RunState.PassStep.tables (s : RunState) (t : MemoryTables) :
    s.PassStep { s with tables := t } := ⟨rfl, rfl, le_rfl⟩

/-- Every price of the cache was answered by the oracle since lookup `lo`, before `hi`. -/
def CachePriced (o : Outside) (lo hi : Nat) (cache : List (String × Decimal)) : Prop :=
  ∀ e ∈ cache, o.Priced lo hi e.1 e.2

theorem CachePriced.mono {o : Outside} {lo hi hi' : Nat} {cache : List (String × Decimal)}
    (h : CachePriced o lo hi cache) (hle : hi ≤ hi') : CachePriced o lo hi' cache :=
  fun e he => (h e he).mono hle

/-! ## The price cache

The pass keeps the prices it got in a list of pairs, read front to back. A token joins the
list only with a price, and only when the list lacks it, so each token has one price for the
rest of the pass. -/

/-- The price the pass's cache holds for `token`, as `lookupPrice` reads it. -/
def cachedPrice (cache : List (String × Decimal)) (token : String) : Option Decimal :=
  (cache.find? (·.1 == token)).map (·.2)

section Cache

variable {cache : List (String × Decimal)} {token : String} {price : Decimal}

/-- A price the cache holds is kept as the cache grows. -/
theorem cachedPrice_append (extra : List (String × Decimal)) (h : cachedPrice cache token = some price) :
    cachedPrice (cache ++ extra) token = some price := by
  unfold cachedPrice at h ⊢
  cases hf : cache.find? (·.1 == token) with
  | none => rw [hf] at h; cases h
  | some e => rw [List.find?_append, hf]; rw [hf] at h; exact h

theorem cachedPrice_of_prefix {prices : List (String × Decimal)} (hpre : cache <+: prices)
    (h : cachedPrice cache token = some price) : cachedPrice prices token = some price := by
  obtain ⟨extra, rfl⟩ := hpre
  exact cachedPrice_append extra h

/-- A token the cache lacks takes the price that joins it. -/
theorem cachedPrice_append_new (h : cachedPrice cache token = none) :
    cachedPrice (cache ++ [(token, price)]) token = some price := by
  unfold cachedPrice at h ⊢
  rw [Option.map_eq_none_iff] at h
  simp [List.find?_append, h]

theorem mem_of_cachedPrice (h : cachedPrice cache token = some price) : (token, price) ∈ cache := by
  unfold cachedPrice at h
  obtain ⟨e, he, rfl⟩ := Option.map_eq_some_iff.mp h
  have htok : e.1 = token := by simpa using List.find?_some he
  rw [← htok]
  exact List.mem_of_find?_eq_some he

theorem not_mem_of_cachedPrice (h : cachedPrice cache token = none) : token ∉ cache.map (·.1) := by
  unfold cachedPrice at h
  rw [Option.map_eq_none_iff, List.find?_eq_none] at h
  simp only [List.mem_map, not_exists, not_and]
  intro e he htok
  exact h e he (by simp [htok])

/-- A token joins the cache at most once. -/
theorem nodup_append_new (hnd : (cache.map (·.1)).Nodup) (h : cachedPrice cache token = none) :
    ((cache ++ [(token, price)]).map (·.1)).Nodup := by
  rw [List.map_append, List.nodup_append]
  refine ⟨hnd, by simp, ?_⟩
  intro a ha b hb hab
  simp only [List.map_cons, List.map_nil, List.mem_singleton] at hb
  rw [hab, hb] at ha
  exact not_mem_of_cachedPrice h ha

/-- A price the grown cache holds was held before, or is the new one. -/
theorem cachedPrice_of_append_new {token' : String} {price' : Decimal}
    (h : cachedPrice (cache ++ [(token, price)]) token' = some price') :
    cachedPrice cache token' = some price' ∨ (token' = token ∧ price' = price) := by
  cases hc : cachedPrice cache token' with
  | some q =>
    rw [cachedPrice_append _ hc] at h
    exact .inl h
  | none =>
    right
    rcases List.mem_append.mp (mem_of_cachedPrice h) with hmem | hmem
    · exact (not_mem_of_cachedPrice hc (List.mem_map_of_mem hmem)).elim
    · simpa using hmem

end Cache

theorem CachePriced.of_cachedPrice {o : Outside} {lo hi : Nat} {cache : List (String × Decimal)}
    {token : String} {price : Decimal} (hc : CachePriced o lo hi cache)
    (h : cachedPrice cache token = some price) : o.Priced lo hi token price :=
  hc _ (mem_of_cachedPrice h)

/-- How handling one stake leaves the price cache and the lookup count `n`: no lookup; a failed
lookup of a token the cache lacks, which skips the stake; or the price of a token the cache
lacked, which joins the cache. A token the cache holds is never looked up. -/
inductive CacheStep (o : Outside) (cache : List (String × Decimal)) (n : Nat) :
    StakeOutcome → List (String × Decimal) → Nat → Prop
  | keep {outcome : StakeOutcome} : CacheStep o cache n outcome cache n
  | failed {token : String} : cachedPrice cache token = none → CacheStep o cache n .skipped cache (n + 1)
  | priced {outcome : StakeOutcome} {token : String} {price : Decimal} :
      cachedPrice cache token = none → o.price n token = some (.ok price) →
      CacheStep o cache n outcome (cache ++ [(token, price)]) (n + 1)

namespace CacheStep

variable {o : Outside} {cache cache' : List (String × Decimal)} {n n' lo : Nat}
  {outcome : StakeOutcome}

theorem grows (h : CacheStep o cache n outcome cache' n') : cache <+: cache' := by
  cases h with
  | keep => exact List.prefix_refl _
  | failed => exact List.prefix_refl _
  | priced => exact List.prefix_append _ _

theorem nodup (h : CacheStep o cache n outcome cache' n') (hnd : (cache.map (·.1)).Nodup) :
    (cache'.map (·.1)).Nodup := by
  cases h with
  | keep => exact hnd
  | failed => exact hnd
  | priced hnone _ => exact nodup_append_new hnd hnone

/-- Every price of the cache was answered during the pass, the new one included. -/
theorem answered (h : CacheStep o cache n outcome cache' n') (hlo : lo ≤ n)
    (hcache : CachePriced o lo n cache) : CachePriced o lo n' cache' := by
  cases h with
  | keep => exact hcache
  | failed => exact hcache.mono (Nat.le_succ n)
  | priced _ hprice =>
    intro e he
    rcases List.mem_append.mp he with hold | hnew
    · exact hcache.mono (Nat.le_succ n) e hold
    · rw [List.mem_singleton.mp hnew]
      exact ⟨n, hlo, Nat.lt_succ_self n, hprice⟩

/-- A lookup either adds a price to the cache or skips the stake. -/
theorem lookups_le (h : CacheStep o cache n outcome cache' n') :
    n' + cache.length ≤ n + cache'.length + (if outcome = .skipped then 1 else 0) := by
  cases h with
  | keep => split <;> omega
  | failed => simp only [if_true]; omega
  | priced => split <;> simp only [List.length_append, List.length_singleton] <;> omega

end CacheStep


section Walk

variable (s : RunState) {lo : Nat}

/-- A price comes from the cache when the cache holds the token, and otherwise from one lookup:
a price joins the cache, a failure is a refusal. Nothing is written. -/
theorem holds_lookupPrice_cached {callMs : Nat} {token : String} {cache : List (String × Decimal)}
    {Q : Post (Decimal × List (String × Decimal))}
    (hcached : ∀ price, cachedPrice cache token = some price → Q.ok (price, cache) s)
    (hfresh : ∀ price, cachedPrice cache token = none →
      s.outside.price s.lookups token = some (.ok price) →
      Q.ok (price, cache ++ [(token, price)]) { s with lookups := s.lookups + 1 })
    (hfailed : ∀ e, cachedPrice cache token = none →
      Q.refused e { s with lookups := s.lookups + 1 }) :
    Holds (lookupPrice callMs token cache) s Q := by
  unfold lookupPrice
  split
  · rename_i tok price hfound
    exact hcached price (by simp [cachedPrice, hfound])
  · rename_i hnone
    have hc : cachedPrice cache token = none := by simp [cachedPrice, hnone]
    rw [holds_bind, holds_bounded, holdsM_usdPrice]
    split
    · exact hfailed _ hc
    · rename_i price hprice
      exact hfresh price hc hprice
    · exact hfailed _ hc

/-- Closing a matured stake of pool `p` at a price that `priced` allows: the closing, then the
free reserve, then the record, unless an overflow stops it after one of the first two. No price
is looked up. -/
theorem closeStake_closes (priced : String → Decimal → Prop) {price : Decimal} {p : Pool}
    (hmatured : x.hasMatured now = true) (hp : s.tables.findPool x.poolId = some p)
    (hpriced : priced p.tokenMaster price) :
    Holds (closeStake x.id x.poolId price now) s
      ⟨fun _ s' => s.PassStep s' ∧ s'.lookups = s.lookups ∧ TickTurn now priced x s.tables s'.tables,
        fun _ s' => s.PassStep s' ∧ s'.lookups = s.lookups ∧ s'.tables = s.tables,
        fun _ s' => s.PassStep s' ∧ s'.lookups = s.lookups ∧ TickCut now priced x s.tables s'.tables⟩ := by
  simp only [closeStake, holds_bind, holds_ledgerStake]
  cases hst : s.tables.findStake x.id with
  | none => exact ⟨.refl s, trivial, trivial⟩
  | some st =>
  simp only [holds_ite, holds_pure, holds_bind]
  by_cases hinactive : (!st.isActive) = true
  · rw [if_pos hinactive]
    exact ⟨.refl s, trivial, .skip⟩
  rw [if_neg hinactive]
  have hactive : st.isActive = true := by simpa using hinactive
  have hpid := s.tables.findPool_id hp
  simp only [holds_updateStake, s.tables.findStake_self hst, holds_ledgerPool,
    MemoryTables.findPool_updateStake, hp, refreshTempReserve, holds_bind, holds_poolStakes,
    holds_checked]
  split
  · -- the pool's free reserve, over its stakes with this one closed
    rename_i free hfree
    rw [hpid] at hfree
    simp only [holds_pure, holds_updatePool, MemoryTables.findPool_updateStake,
      s.tables.findPool_self hp]
    split
    · simp only [holds_logAt, holds_recordOperation, holds_publish]
      exact ⟨.tables s _, trivial, .close hmatured hp hpriced hst hactive hfree
        (MemoryTables.logged_appendOperation _ _ _ _ _)⟩
    · exact ⟨.tables s _, trivial, .refreshed hmatured hp hpriced hst hactive hfree⟩
  · exact ⟨.tables s _, trivial, .closed hmatured hp hpriced hst hactive⟩

/-- What handling listed stake `x` from `s` with `cache` may answer and leave: a whole turn that
closes at the price the answered cache holds, with the cache and the lookups as `CacheStep`
says; no write and at most one lookup when it is refused; and a cut turn, closing at a price of
the cache or one the oracle answered within the turn, when it overflows. -/
def Post.cachedTurn (now : Instant) (x : Stake) (s : RunState) (cache : List (String × Decimal)) :
    Post (StakeOutcome × List (String × Decimal)) :=
  ⟨fun r s' => s.PassStep s' ∧ CacheStep s.outside cache s.lookups r.1 r.2 s'.lookups ∧
      TickTurn now (fun token price => cachedPrice r.2 token = some price) x s.tables s'.tables,
    fun _ s' => s.PassStep s' ∧ s'.tables = s.tables ∧ s'.lookups ≤ s.lookups + 1,
    fun _ s' => s.PassStep s' ∧ TickCut now (fun token price => cachedPrice cache token = some price ∨
      s.outside.Priced s.lookups s'.lookups token price) x s.tables s'.tables⟩

theorem processStake_cached (callMs : Nat) (now : Instant) (x : Stake)
    (cache : List (String × Decimal)) :
    Holds (processStake callMs x now cache) s (Post.cachedTurn now x s cache) := by
  simp only [processStake, holds_bind, holds_ledgerPool]
  cases hp : s.tables.findPool x.poolId with
  | none => exact ⟨.refl s, rfl, Nat.le_succ _⟩
  | some p =>
  have hpid := s.tables.findPool_id hp
  simp only [holds_ite]
  by_cases hmatured : x.hasMatured now = true
  · -- a matured stake is closed at its token's price, from the cache or from the oracle
    rw [if_pos hmatured, holds_bind, holds_tryCatch, holds_bind]
    apply holds_lookupPrice_cached s
    · intro price hprice
      simp only [holds_pure, holds_bind]
      rw [hpid]
      refine Holds.mono (closeStake_closes s (fun token price => cachedPrice cache token = some price)
        hmatured hp hprice) ?_ ?_ ?_
      · rintro o s' ⟨hstep, hl, hturn⟩
        exact ⟨hstep, hl ▸ .keep, hturn⟩
      · rintro e s' ⟨hstep, hl, ht⟩
        exact ⟨hstep, ht, by omega⟩
      · rintro o s' ⟨hstep, -, hcut⟩
        exact ⟨hstep, hcut.mono fun _ _ h => .inl h⟩
    · intro price hnone hprice
      simp only [holds_pure, holds_bind]
      rw [hpid]
      have hstep : s.PassStep { s with lookups := s.lookups + 1 } := ⟨rfl, rfl, Nat.le_succ _⟩
      refine Holds.mono (closeStake_closes _ (fun token price' =>
        cachedPrice (cache ++ [(p.tokenMaster, price)]) token = some price') hmatured hp
        (cachedPrice_append_new hnone)) ?_ ?_ ?_
      · rintro o s' ⟨hstep', hl, hturn⟩
        refine ⟨hstep.trans hstep', ?_, hturn⟩
        rw [hl]
        exact .priced hnone hprice
      · rintro e s' ⟨hstep', hl, ht⟩
        exact ⟨hstep.trans hstep', ht, by rw [hl]⟩
      · -- the price that joined the cache was answered by this turn's lookup
        rintro o s' ⟨hstep', hl, hcut⟩
        refine ⟨hstep.trans hstep', hcut.mono fun token price' h => ?_⟩
        rcases cachedPrice_of_append_new h with hc | ⟨rfl, rfl⟩
        · exact .inl hc
        · exact .inr ⟨s.lookups, le_rfl, by rw [hl]; exact Nat.lt_succ_self _, hprice⟩
    · -- no price: the stake waits for the next pass
      intro e hnone
      simp only [holds_bind, holds_logAt, holds_pure]
      exact ⟨⟨rfl, rfl, Nat.le_succ _⟩, .failed hnone, .skip⟩
  · -- any other stake earns a day of reward, up to its cap
    rw [if_neg hmatured]
    simp only [holds_bind, holds_ledgerStake]
    cases hst : s.tables.findStake x.id with
    | none => exact ⟨.refl s, rfl, Nat.le_succ _⟩
    | some st =>
    simp only [holds_ite, holds_pure, holds_bind, holds_checked]
    by_cases hinactive : (!st.isActive) = true
    · rw [if_pos hinactive]
      exact ⟨.refl s, .keep, .skip⟩
    rw [if_neg hinactive]
    cases hnext : nextBalance p st with
    | error o => exact ⟨.refl s, .early⟩
    | ok next =>
    cases next with
    | none => exact ⟨.refl s, .keep, .skip⟩
    | some next =>
    simp only [holds_bind, holds_updateStake, s.tables.findStake_self hst, holds_logAt, holds_pure]
    exact ⟨.tables s _, .keep, .accrue (by simpa using hmatured) hst (by simpa using hinactive) hp
      hnext⟩

/-- The stakes a report counts, under all of its headings but `scanned`. -/
def TickReport.handled (r : TickReport) : Nat :=
  r.accrued + r.capped + r.closed + r.skipped + r.failed

/-- The pass over `xs` from `report` and `cache`. When it answers, each stake is counted once;
the cache only grows, one price per token, each answered by the oracle since lookup `lo`; every
lookup adds a price or counts a stake as skipped or failed; and the tables are those of the
pass over `xs` in which every closing is at the price of the final cache. When it overflows,
the tables are those of the pass cut short, closing at prices the oracle answered. -/
theorem tallyStakes_cached (callMs : Nat) (now : Instant) :
    ∀ (xs : List Stake) (report : TickReport) (cache : List (String × Decimal)) (s : RunState),
      lo ≤ s.lookups → CachePriced s.outside lo s.lookups cache → (cache.map (·.1)).Nodup →
      HoldsM (tallyStakes callMs now xs report cache) s
        (fun r s' => s.PassStep s' ∧ r.scanned = report.scanned ∧
          r.handled = report.handled + xs.length ∧
          ∃ prices, cache <+: prices ∧ (prices.map (·.1)).Nodup ∧
            CachePriced s.outside lo s'.lookups prices ∧
            s'.lookups + cache.length + report.skipped + report.failed ≤
              s.lookups + prices.length + r.skipped + r.failed ∧
            TickPass now (fun token price => cachedPrice prices token = some price) xs
              s.tables s'.tables)
        (fun _ s' => s.PassStep s' ∧
          TickPassCut now (s.outside.Priced lo s'.lookups) xs s.tables s'.tables)
  | [], _, cache, s, _, hcache, hnd =>
    ⟨.refl s, rfl, by simp, cache, List.prefix_refl _, hnd, hcache, by omega, .nil⟩
  | x :: xs, report, cache, s, hlo, hcache, hnd => by
    unfold tallyStakes
    rw [holdsM_bind, holdsM_run]
    refine Holds.mono (processStake_cached s callMs now x cache) ?_ ?_ ?_
    · -- the turn answered; the pass goes on with the cache it left
      rintro ⟨outcome, cache'⟩ s' ⟨hstep, hcs, hturn⟩
      have hlo' := hlo.trans hstep.lookups
      have hcache' := hcs.answered hlo hcache
      rw [← hstep.outside] at hcache'
      have hcount := hcs.lookups_le
      refine HoldsM.mono (tallyStakes_cached callMs now xs _ cache' s' hlo' hcache'
        (hcs.nodup hnd)) ?_ ?_
      · rintro r s'' ⟨hstep', hscan, hhandled, prices, hpre, hnd', hcp, hcount', hpass⟩
        rw [hstep.outside] at hcp
        refine ⟨hstep.trans hstep', ?_, ?_, prices, hcs.grows.trans hpre, hnd', hcp, ?_,
          .cons (hturn.mono fun _ _ h => cachedPrice_of_prefix hpre h) hpass⟩ <;>
          cases outcome <;>
          simp only [TickReport.handled, List.length_cons] at hscan hhandled hcount' ⊢ <;>
          simp at hcount <;> omega
      · -- an overflow later in the pass: this turn closed at a price of its cache
        rintro o s'' ⟨hstep', hcut⟩
        rw [hstep.outside] at hcut hcache'
        exact ⟨hstep.trans hstep', .later (hturn.mono fun _ _ h =>
          (hcache'.of_cachedPrice h).mono hstep'.lookups) hcut⟩
    · -- the turn was refused before any write; the pass goes on with the same cache
      rintro e s' ⟨hstep, ht, hl⟩
      dsimp only
      rw [holdsM_bind, holdsM_logAt]
      have hcache' : CachePriced s'.outside lo s'.lookups cache :=
        hstep.outside ▸ hcache.mono hstep.lookups
      refine HoldsM.mono (tallyStakes_cached callMs now xs _ cache s' (hlo.trans hstep.lookups)
        hcache' hnd) ?_ ?_
      · rintro r s'' ⟨hstep', hscan, hhandled, prices, hpre, hnd', hcp, hcount', hpass⟩
        rw [hstep.outside] at hcp
        rw [ht] at hpass
        refine ⟨hstep.trans hstep', hscan, ?_, prices, hpre, hnd', hcp, ?_, .cons .skip hpass⟩ <;>
          simp only [TickReport.handled, List.length_cons] at hhandled hcount' ⊢ <;> omega
      · rintro o s'' ⟨hstep', hcut⟩
        rw [hstep.outside, ht] at hcut
        exact ⟨hstep.trans hstep', .later .skip hcut⟩
    · -- the pass ends in this turn
      rintro o s' ⟨hstep, hcut⟩
      refine ⟨hstep, .here (hcut.mono fun _ _ h => ?_)⟩
      rcases h with hc | hpriced
      · exact (hcache.of_cachedPrice hc).mono hstep.lookups
      · exact hpriced.widen hlo

end Walk

/-- A tick from `s` is the pass over the stakes listed as active from an empty cache: it is
never refused, it answers with the report of that pass, and an overflow cuts the pass short. -/
theorem accrualTick_cached (s : RunState) (callMs : Nat) (now : Instant) :
    Holds (accrualTick callMs now) s
      ⟨fun report s' => s.PassStep s' ∧ report.scanned = s.tables.activeStakes.length ∧
          report.handled = report.scanned ∧
          ∃ prices : List (String × Decimal), (prices.map (·.1)).Nodup ∧
            CachePriced s.outside s.lookups s'.lookups prices ∧
            s'.lookups ≤ s.lookups + prices.length + report.skipped + report.failed ∧
            TickPass now (fun token price => cachedPrice prices token = some price)
              s.tables.activeStakes s.tables s'.tables,
        fun _ _ => False,
        fun _ s' => s.PassStep s' ∧
          TickPassCut now (s.outside.Priced s.lookups s'.lookups) s.tables.activeStakes s.tables
            s'.tables⟩ := by
  simp only [accrualTick, holds_bind, holds_listActiveStakes, holds_liftM]
  refine HoldsM.mono (tallyStakes_cached callMs now _ _ [] s le_rfl (fun _ h => by cases h)
    List.nodup_nil) ?_ ?_
  · rintro report s' ⟨hstep, hscan, hhandled, prices, -, hnd, hcp, hcount, hpass⟩
    simp only [TickReport.handled, List.length_nil, Nat.zero_add, Nat.add_zero] at hhandled hcount
    have hsum : report.handled = report.scanned := by
      rw [hscan, TickReport.handled, hhandled]
    simp only [holds_ite, holds_pure]
    split <;> exact ⟨hstep, hscan, hsum, prices, hnd, hcp, hcount, hpass⟩
  · rintro o s' hcut
    exact hcut

/-! ## A tick as a step of a run -/

/-- Whatever the oracle answers, a tick writes the pass's writes for the listed stakes, in
order, and sends nothing. -/
theorem accrualTick_step (s : RunState) (callMs : Nat) (now : Instant) :
    Holds (accrualTick callMs now) s (.step (.tick callMs now) s) := by
  refine Holds.mono (accrualTick_cached s callMs now) ?_ ?_ ?_
  · rintro report s' ⟨hstep, -, -, prices, -, -, -, hpass⟩
    exact OpStep.tick hpass.run hstep.transfers
  · rintro e s' hfalse
    exact hfalse.elim
  · rintro o s' ⟨hstep, hcut⟩
    exact OpStep.tick hcut.run hstep.transfers

end PoolTreasury
