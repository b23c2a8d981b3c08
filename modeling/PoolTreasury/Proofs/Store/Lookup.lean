import PoolTreasury.Store.Memory

/-! # Looking records up after a write

Every record of the in-memory store is found by `find?` on its id, so each write is
described by what a lookup answers afterwards: the written record at its own id and the
old answer at every other. `upsertBy` puts the new record in front of every other record
with its key, whatever order the list is in, so none of these facts needs the tables to be
sorted.
-/

namespace PoolTreasury

section Upsert

variable {α : Type} (key : α → Nat)

/-- After an upsert, the first record with the written key is the written one, and the
records of every other key are found as before. -/
theorem find?_upsertBy (x : α) (l : List α) (k : Nat) :
    (upsertBy key x l).find? (fun y => key y == k) =
      if key x = k then some x else l.find? (fun y => key y == k) := by
  induction l with
  | nil => by_cases h : key x = k <;> simp [upsertBy, h]
  | cons y ys ih =>
    unfold upsertBy
    by_cases hlt : key x < key y
    · -- the written record goes in front
      rw [if_pos hlt]
      by_cases h : key x = k <;> simp [h, List.find?_cons]
    · rw [if_neg hlt]
      by_cases heq : key x = key y
      · -- the written record replaces the one with its key
        rw [if_pos heq]
        by_cases h : key x = k
        · simp [h]
        · have hy : (key y == k) = false := by simpa [← heq] using h
          simp [h, hy]
      · -- the written record goes further on, past `y`, whose key is not `k` when `x`'s is
        rw [if_neg heq]
        by_cases h : key x = k
        · have hy : (key y == k) = false := by simpa [← h] using Ne.symm heq
          simp [h, hy, ih]
        · simp [h, List.find?_cons, ih]

end Upsert

/-- A record found by id carries that id. -/
theorem id_of_find? {α : Type} {id : α → Nat} {l : List α} {k : Nat} {x : α}
    (h : l.find? (fun y => id y == k) = some x) : id x = k := by
  simpa using List.find?_some h

namespace MemoryTables

variable (t : MemoryTables)

/-! ## Lookups by id -/

theorem findPool_id {k : Nat} {p : Pool} (h : t.findPool k = some p) : p.id = k :=
  id_of_find? h

theorem findStake_id {k : Nat} {st : Stake} (h : t.findStake k = some st) : st.id = k :=
  id_of_find? h

/-- A found pool is found again under its own id. -/
theorem findPool_self {k : Nat} {p : Pool} (h : t.findPool k = some p) : t.findPool p.id = some p := by
  rw [findPool_id t h]
  exact h

/-- A found stake is found again under its own id. -/
theorem findStake_self {k : Nat} {st : Stake} (h : t.findStake k = some st) :
    t.findStake st.id = some st := by
  rw [findStake_id t h]
  exact h

/-! ## Writes that touch no pool or stake -/

@[simp] theorem allocate_fst : t.allocate.1 = t.lastId + 1 := rfl

@[simp] theorem findPool_appendOperation (k u d now id) :
    (t.appendOperation k u d now).2.findPool id = t.findPool id := rfl

@[simp] theorem findStake_appendOperation (k u d now id) :
    (t.appendOperation k u d now).2.findStake id = t.findStake id := rfl

@[simp] theorem findUser_appendOperation (k u d now id) :
    (t.appendOperation k u d now).2.findUser id = t.findUser id := rfl

@[simp] theorem stakes_appendOperation (k u d now) :
    (t.appendOperation k u d now).2.stakes = t.stakes := rfl

@[simp] theorem lastId_appendOperation (k u d now) :
    (t.appendOperation k u d now).2.lastId = t.lastId + 1 := rfl

@[simp] theorem findStake_reindex (previous current id) :
    (t.reindex previous current).findStake id = t.findStake id := rfl

@[simp] theorem findPool_reindex (previous current id) :
    (t.reindex previous current).findPool id = t.findPool id := rfl

@[simp] theorem lastId_reindex (previous current) :
    (t.reindex previous current).lastId = t.lastId := rfl

@[simp] theorem stakes_reindex (previous current) :
    (t.reindex previous current).stakes = t.stakes := rfl

@[simp] theorem pools_reindex (previous current) :
    (t.reindex previous current).pools = t.pools := rfl

/-- The tables after appending an operation record of some kind, text and time. -/
def Logged (t' : MemoryTables) : Prop := ∃ k u d now, t' = (t.appendOperation k u d now).2

theorem logged_appendOperation (k u d now) : t.Logged (t.appendOperation k u d now).2 :=
  ⟨k, u, d, now, rfl⟩

theorem findPool_of_logged {t' : MemoryTables} (h : t.Logged t') (id : Nat) :
    t'.findPool id = t.findPool id := by
  obtain ⟨k, u, d, now, rfl⟩ := h
  rfl

theorem findStake_of_logged {t' : MemoryTables} (h : t.Logged t') (id : Nat) :
    t'.findStake id = t.findStake id := by
  obtain ⟨k, u, d, now, rfl⟩ := h
  rfl

theorem findUser_of_logged {t' : MemoryTables} (h : t.Logged t') (id : Nat) :
    t'.findUser id = t.findUser id := by
  obtain ⟨k, u, d, now, rfl⟩ := h
  rfl

theorem stakes_of_logged {t' : MemoryTables} (h : t.Logged t') : t'.stakes = t.stakes := by
  obtain ⟨k, u, d, now, rfl⟩ := h
  rfl

theorem lastId_of_logged {t' : MemoryTables} (h : t.Logged t') : t'.lastId = t.lastId + 1 := by
  obtain ⟨k, u, d, now, rfl⟩ := h
  rfl

theorem findPool_saveUser (a now id) : (t.saveUser a now).2.findPool id = t.findPool id := by
  unfold saveUser; split <;> rfl

theorem findStake_saveUser (a now id) : (t.saveUser a now).2.findStake id = t.findStake id := by
  unfold saveUser; split <;> rfl

theorem lastId_saveUser_le (a now) : t.lastId ≤ (t.saveUser a now).2.lastId := by
  unfold saveUser; split <;> simp [allocate]

/-- A save the store refuses leaves the tables as they were. -/
theorem saveUser_of_error {a : String} {now : Instant} {e : StoreError}
    (h : (t.saveUser a now).1 = .error e) : (t.saveUser a now).2 = t := by
  unfold saveUser at h ⊢
  split at h
  · rename_i htaken
    rw [if_pos htaken]
  · cases h

/-! ## Pool writes -/

/-- A pool found after a write that puts `q` under its id and keeps every other pool is `q`,
or was found before. -/
theorem eq_or_findPool_of_write {t' : MemoryTables} {q : Pool}
    (hw : ∀ id, t'.findPool id = if q.id = id then some q else t.findPool id) {k : Nat}
    {p' : Pool} (hp' : t'.findPool k = some p') : (q.id = k ∧ p' = q) ∨ t.findPool k = some p' := by
  rw [hw] at hp'
  split at hp'
  · rename_i hid
    exact .inl ⟨hid, (Option.some.inj hp').symm⟩
  · exact .inr hp'

theorem findPool_savePool (p : Pool) (id : Nat) :
    (t.savePool p).2.findPool id =
      if t.lastId + 1 = id then some { p with id := t.lastId + 1 } else t.findPool id :=
  show (upsertBy (·.id) { p with id := t.lastId + 1 } t.pools).find? (·.id == id) = _ from
    find?_upsertBy (·.id) _ t.pools id

@[simp] theorem findStake_savePool (p : Pool) (id : Nat) :
    (t.savePool p).2.findStake id = t.findStake id := rfl

@[simp] theorem lastId_savePool (p : Pool) : (t.savePool p).2.lastId = t.lastId + 1 := rfl

/-- Replacing a pool that exists succeeds and changes only that pool. -/
theorem updatePool_of_found {p q : Pool} (h : t.findPool p.id = some q) :
    t.updatePool p = (.ok (), { t with pools := upsertBy (·.id) p t.pools }) := by
  simp [updatePool, h]

theorem findPool_updatePool {p q : Pool} (h : t.findPool p.id = some q) (id : Nat) :
    (t.updatePool p).2.findPool id = if p.id = id then some p else t.findPool id := by
  rw [updatePool_of_found t h]
  exact find?_upsertBy (·.id) _ t.pools id

@[simp] theorem findStake_updatePool (p : Pool) (id : Nat) :
    (t.updatePool p).2.findStake id = t.findStake id := by
  unfold updatePool; split <;> rfl

@[simp] theorem lastId_updatePool (p : Pool) : (t.updatePool p).2.lastId = t.lastId := by
  unfold updatePool; split <;> rfl

theorem findPool_deletePool {q : Pool} {k : Nat} (h : t.findPool k = some q) (id : Nat) :
    (t.deletePool k).2.findPool id = if k = id then none else t.findPool id := by
  have hw : t.deletePool k = (.ok (), { t with pools := t.pools.filter (·.id != k) }) := by
    simp [deletePool, h]
  rw [hw]
  show (t.pools.filter (·.id != k)).find? (·.id == id) = _
  rw [List.find?_filter]
  by_cases hk : k = id
  · subst hk
    simp only [if_true, List.find?_eq_none]
    intro x _ hx
    simp at hx
  · simp only [hk, if_false]
    congr 1
    funext x
    by_cases hx : x.id = id
    · simp [hx, Ne.symm hk]
    · simp [hx]

@[simp] theorem findStake_deletePool (k id : Nat) :
    (t.deletePool k).2.findStake id = t.findStake id := by
  unfold deletePool; split <;> rfl

@[simp] theorem lastId_deletePool (k : Nat) : (t.deletePool k).2.lastId = t.lastId := by
  unfold deletePool; split <;> rfl

/-! ## Stake writes -/

/-- A stake found after a write that puts `q` under its id and keeps every other stake is `q`,
or was found before. -/
theorem eq_or_findStake_of_write {t' : MemoryTables} {q : Stake}
    (hw : ∀ id, t'.findStake id = if q.id = id then some q else t.findStake id) {k : Nat}
    {st : Stake} (hs : t'.findStake k = some st) : (q.id = k ∧ st = q) ∨ t.findStake k = some st := by
  rw [hw] at hs
  split at hs
  · rename_i hid
    exact .inl ⟨hid, (Option.some.inj hs).symm⟩
  · exact .inr hs

theorem saveStake_fst (st : Stake) : (t.saveStake st).1 = { st with id := t.lastId + 1 } := rfl

theorem findStake_saveStake (st : Stake) (id : Nat) :
    (t.saveStake st).2.findStake id =
      if t.lastId + 1 = id then some { st with id := t.lastId + 1 } else t.findStake id :=
  show (upsertBy (·.id) { st with id := t.lastId + 1 } t.stakes).find? (·.id == id) = _ from
    find?_upsertBy (·.id) _ t.stakes id

@[simp] theorem findPool_saveStake (st : Stake) (id : Nat) :
    (t.saveStake st).2.findPool id = t.findPool id := rfl

@[simp] theorem lastId_saveStake (st : Stake) : (t.saveStake st).2.lastId = t.lastId + 1 := rfl

/-- Replacing a stake that exists succeeds and changes only that stake and the active index. -/
theorem updateStake_of_found {st prev : Stake} (h : t.findStake st.id = some prev) :
    t.updateStake st =
      (.ok (), { t.reindex (some prev) st with stakes := upsertBy (·.id) st t.stakes }) := by
  simp [updateStake, h]

theorem findStake_updateStake {st prev : Stake} (h : t.findStake st.id = some prev) (id : Nat) :
    (t.updateStake st).2.findStake id = if st.id = id then some st else t.findStake id := by
  rw [updateStake_of_found t h]
  exact find?_upsertBy (·.id) _ t.stakes id

@[simp] theorem findPool_updateStake (st : Stake) (id : Nat) :
    (t.updateStake st).2.findPool id = t.findPool id := by
  unfold updateStake; split <;> rfl

@[simp] theorem lastId_updateStake (st : Stake) : (t.updateStake st).2.lastId = t.lastId := by
  unfold updateStake; split <;> rfl

/-- Settling a claim on a stake and a pool that exist writes both. -/
theorem settleClaim_of_found {st prev : Stake} {p q : Pool} (hs : t.findStake st.id = some prev)
    (hp : t.findPool p.id = some q) :
    t.settleClaim st p = (.ok (), { t.reindex (some prev) st with
      stakes := upsertBy (·.id) st t.stakes, pools := upsertBy (·.id) p t.pools }) := by
  simp [settleClaim, hs, hp]

theorem findStake_settleClaim {st prev : Stake} {p q : Pool} (hs : t.findStake st.id = some prev)
    (hp : t.findPool p.id = some q) (id : Nat) :
    (t.settleClaim st p).2.findStake id = if st.id = id then some st else t.findStake id := by
  rw [settleClaim_of_found t hs hp]
  exact find?_upsertBy (·.id) _ t.stakes id

theorem findPool_settleClaim {st prev : Stake} {p q : Pool} (hs : t.findStake st.id = some prev)
    (hp : t.findPool p.id = some q) (id : Nat) :
    (t.settleClaim st p).2.findPool id = if p.id = id then some p else t.findPool id := by
  rw [settleClaim_of_found t hs hp]
  exact find?_upsertBy (·.id) _ t.pools id

@[simp] theorem lastId_settleClaim (st : Stake) (p : Pool) :
    (t.settleClaim st p).2.lastId = t.lastId := by
  unfold settleClaim; split
  · rfl
  · split <;> rfl

end MemoryTables

end PoolTreasury
