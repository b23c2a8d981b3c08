import PoolTreasury.Store.Backend
import PoolTreasury.Proofs.Ledger.Capacity

/-! # The indexes of the in-memory store

Beside its tables the in-memory store keeps two indexes. The active index lists the end date
and id of every active stake in ascending order; the accrual pass walks it and nothing else.
The address index lists each user's address with its id; registration and deposits find users
through it. Each write of a stake moves the stake in the active index, from the entry of the
record it replaces to its own entry when it is active (`MemoryTables.reindex`). Each
registration appends to the address index, and refuses an address already there.

Both indexes stay exact through every sequence of store calls (`memory_store_indexes`). The
active index holds exactly the entries of the active stakes, so listing the active stakes
returns each of them once, in the order of end date and id. An address finds exactly the
user registered with it. The proof carries one invariant, `MemoryTables.Indexed`, through
each call.
-/

namespace PoolTreasury

/-! ## The order of the active index -/

namespace Instant

theorem lt_irrefl (a : Instant) : ¬ a < a := by
  rw [lt_def]
  omega

theorem lt_trans {a b c : Instant} (hab : a < b) (hbc : b < c) : a < c := by
  rw [lt_def] at *
  omega

theorem lt_or_gt_of_ne {a b : Instant} (h : a ≠ b) : a < b ∨ b < a := by
  obtain ⟨s, n⟩ := a
  obtain ⟨s', n'⟩ := b
  simp only [ne_eq, Instant.mk.injEq] at h
  simp only [lt_def]
  omega

end Instant

theorem pairLt_iff {a b : Instant × Nat} :
    pairLt a b = true ↔ a.1 < b.1 ∨ (a.1 = b.1 ∧ a.2 < b.2) := by
  unfold pairLt
  simp

theorem pairLt_irrefl (a : Instant × Nat) : pairLt a a = false := by
  rw [Bool.eq_false_iff, ne_eq, pairLt_iff]
  rintro (h | ⟨-, h⟩)
  · exact Instant.lt_irrefl _ h
  · exact Nat.lt_irrefl _ h

theorem pairLt_trans {a b c : Instant × Nat} (hab : pairLt a b = true) (hbc : pairLt b c = true) :
    pairLt a c = true := by
  rw [pairLt_iff] at *
  rcases hab with hab | ⟨hab, hab'⟩ <;> rcases hbc with hbc | ⟨hbc, hbc'⟩
  · exact .inl (Instant.lt_trans hab hbc)
  · exact .inl (hbc ▸ hab)
  · exact .inl (hab ▸ hbc)
  · exact .inr ⟨hab.trans hbc, hab'.trans hbc'⟩

/-- Two different entries are ordered one way or the other. -/
theorem pairLt_of_not {a b : Instant × Nat} (hne : a ≠ b) (h : ¬ pairLt a b = true) :
    pairLt b a = true := by
  rw [pairLt_iff] at h ⊢
  by_cases hdate : a.1 = b.1
  · have hid : a.2 ≠ b.2 := fun hid => hne (Prod.ext hdate hid)
    have hnlt : ¬ a.2 < b.2 := fun hlt => h (.inr ⟨hdate, hlt⟩)
    exact .inr ⟨hdate.symm, by omega⟩
  · rcases Instant.lt_or_gt_of_ne hdate with hlt | hgt
    · exact absurd (.inl hlt) h
    · exact .inl hgt

theorem mem_insertPair {p e : Instant × Nat} {l : List (Instant × Nat)} :
    e ∈ insertPair p l ↔ e = p ∨ e ∈ l := by
  induction l with
  | nil => simp [insertPair]
  | cons q qs ih =>
    unfold insertPair
    split
    · simp
    · split
      · -- the entry is there already
        rename_i heq
        subst heq
        simp only [List.mem_cons]
        tauto
      · simp only [List.mem_cons, ih]
        tauto

/-- Inserting keeps the index in ascending order. -/
theorem pairwise_insertPair (p : Instant × Nat) {l : List (Instant × Nat)}
    (hl : l.Pairwise (fun a b => pairLt a b = true)) :
    (insertPair p l).Pairwise (fun a b => pairLt a b = true) := by
  induction l with
  | nil => simp [insertPair]
  | cons q qs ih =>
    rw [List.pairwise_cons] at hl
    obtain ⟨hq, hqs⟩ := hl
    unfold insertPair
    split
    · -- `p` goes in front of `q`
      rename_i hlt
      refine List.Pairwise.cons (fun r hr => ?_) (List.Pairwise.cons hq hqs)
      rcases List.mem_cons.mp hr with rfl | hr
      · exact hlt
      · exact pairLt_trans hlt (hq r hr)
    · split
      · exact List.Pairwise.cons hq hqs
      · -- `p` goes further on, past `q`, which is below it
        rename_i hnlt hne
        refine List.Pairwise.cons (fun r hr => ?_) (ih hqs)
        rcases mem_insertPair.mp hr with rfl | hr
        · exact pairLt_of_not hne hnlt
        · exact hq r hr

/-- A list in ascending order holds each entry once. -/
theorem nodup_of_pairwise_pairLt {l : List (Instant × Nat)}
    (hl : l.Pairwise (fun a b => pairLt a b = true)) : l.Nodup :=
  hl.imp fun hlt heq => by
    subst heq
    rw [pairLt_irrefl] at hlt
    cases hlt

/-! ## Upserts into a list ordered by key -/

section Upsert

variable {α : Type} (key : α → Nat)

/-- The records after an upsert: the written one, and those of other keys. -/
theorem mem_upsertBy_iff {x z : α} {l : List α} (hl : l.Pairwise (fun a b => key a < key b)) :
    z ∈ upsertBy key x l ↔ z = x ∨ (z ∈ l ∧ key z ≠ key x) := by
  induction l with
  | nil => simp [upsertBy]
  | cons y ys ih =>
    rw [List.pairwise_cons] at hl
    obtain ⟨hy, hys⟩ := hl
    unfold upsertBy
    split
    · -- `x` goes in front: every key of the list is above its key
      rename_i hlt
      have habove : ∀ w ∈ y :: ys, key w ≠ key x := by
        intro w hw
        rcases List.mem_cons.mp hw with rfl | hw
        · omega
        · have := hy w hw
          omega
      constructor
      · intro hz
        rcases List.mem_cons.mp hz with rfl | hz
        · exact .inl rfl
        · exact .inr ⟨hz, habove z hz⟩
      · rintro (rfl | ⟨hz, -⟩)
        · exact List.mem_cons_self
        · exact List.mem_cons_of_mem x hz
    · split
      · -- `x` takes the place of `y`; the rest have keys above
        rename_i _ heq
        have habove : ∀ w ∈ ys, key w ≠ key x := fun w hw => by
          have := hy w hw
          omega
        simp only [List.mem_cons]
        constructor
        · rintro (rfl | hz)
          · exact .inl rfl
          · exact .inr ⟨.inr hz, habove z hz⟩
        · rintro (rfl | ⟨rfl | hz, hne⟩)
          · exact .inl rfl
          · exact absurd heq.symm hne
          · exact .inr hz
      · -- `x` goes further on, past `y`, whose key is not its key
        rename_i _ hne
        simp only [List.mem_cons, ih hys]
        constructor
        · rintro (rfl | rfl | ⟨hz, hzx⟩)
          · exact .inr ⟨.inl rfl, fun h => hne h.symm⟩
          · exact .inl rfl
          · exact .inr ⟨.inr hz, hzx⟩
        · rintro (rfl | ⟨rfl | hz, hzx⟩)
          · exact .inr (.inl rfl)
          · exact .inl rfl
          · exact .inr (.inr ⟨hz, hzx⟩)

end Upsert

/-! ## The invariant -/

/-- Where a stake stands in the active index: its end date, then its id. -/
def Stake.indexEntry (st : Stake) : Instant × Nat := (st.endDate, st.id)

namespace MemoryTables

/-- The active index lists, in ascending order, exactly the entries of the active stakes.
Stakes are kept by ascending id, below the id counter, so each id names one stake. -/
structure ActiveIndexed (t : MemoryTables) : Prop where
  sorted : t.Sorted
  fresh : ∀ st ∈ t.stakes, st.id ≤ t.lastId
  ordered : t.active.Pairwise (fun a b => pairLt a b = true)
  indexed : ∀ e, e ∈ t.active ↔ ∃ st ∈ t.stakes, st.isActive = true ∧ st.indexEntry = e

/-- The address index lists every user under its address, in the order of their ids, and no
address twice. Users are kept by ascending id, below the id counter. -/
structure AddressesIndexed (t : MemoryTables) : Prop where
  sorted : t.users.Pairwise (fun a b => a.id < b.id)
  fresh : ∀ u ∈ t.users, u.id ≤ t.lastId
  byAddress : t.byAddress = t.users.map fun u => (u.walletAddress, u.id)
  distinct : (t.users.map (·.walletAddress)).Nodup

/-- Both indexes of the store are exact. -/
structure Indexed (t : MemoryTables) : Prop where
  active : t.ActiveIndexed
  addresses : t.AddressesIndexed

theorem indexed_empty : Indexed {} :=
  ⟨⟨List.Pairwise.nil, (fun _ h => by cases h), List.Pairwise.nil, (fun _ => by simp)⟩,
    ⟨List.Pairwise.nil, (fun _ h => by cases h), rfl, List.nodup_nil⟩⟩

variable {t t' : MemoryTables}

/-- The entries the active index holds after a stake is moved in it. -/
theorem mem_reindex {previous : Option Stake} {x : Stake} {e : Instant × Nat}
    (hnodup : t.active.Nodup) :
    e ∈ (t.reindex previous x).active ↔
      (x.isActive = true ∧ e = x.indexEntry) ∨ (e ∈ t.active ∧ ∀ p ∈ previous, e ≠ p.indexEntry) := by
  unfold reindex
  cases previous with
  | none => cases x.isActive <;> simp [mem_insertPair, Stake.indexEntry]
  | some p =>
    cases x.isActive <;> simp [mem_insertPair, Stake.indexEntry, hnodup.mem_erase_iff] <;> tauto

namespace ActiveIndexed

theorem nodup (h : t.ActiveIndexed) : t.active.Nodup :=
  nodup_of_pairwise_pairLt h.ordered

/-- Writing a stake under its id, and moving it in the active index from the record it
replaces, if any. -/
theorem write (h : t.ActiveIndexed) {x : Stake} (hstakes : t'.stakes = upsertBy (·.id) x t.stakes)
    (hactive : t'.active = (t.reindex (t.findStake x.id) x).active) (hx : x.id ≤ t'.lastId)
    (hlast : t.lastId ≤ t'.lastId) : t'.ActiveIndexed where
  sorted := h.sorted.of_upsert hstakes
  fresh := by
    intro st hst
    rw [hstakes] at hst
    rcases mem_upsertBy _ hst with rfl | hst
    · exact hx
    · exact (h.fresh st hst).trans hlast
  ordered := by
    rw [hactive]
    unfold reindex
    -- erasing an entry keeps the order, and so does inserting one
    have hkept : ∀ l : List (Instant × Nat), l.Sublist t.active →
        (if x.isActive then insertPair (x.endDate, x.id) l else l).Pairwise
          (fun a b => pairLt a b = true) := by
      intro l hl
      split
      · exact pairwise_insertPair _ (h.ordered.sublist hl)
      · exact h.ordered.sublist hl
    cases t.findStake x.id with
    | none => exact hkept _ (List.Sublist.refl _)
    | some p => exact hkept _ (List.erase_sublist)
  indexed := by
    intro e
    rw [hactive, mem_reindex h.nodup, hstakes]
    simp only [mem_upsertBy_iff (fun st : Stake => st.id) h.sorted]
    constructor
    · rintro (⟨hxa, rfl⟩ | ⟨he, hprev⟩)
      · exact ⟨x, .inl rfl, hxa, rfl⟩
      · obtain ⟨st, hst, hsa, rfl⟩ := (h.indexed _).mp he
        refine ⟨st, .inr ⟨hst, fun hid => ?_⟩, hsa, rfl⟩
        -- a stake of the written id is the record replaced, whose entry was taken out
        have hfound : t.findStake x.id = some st := hid ▸ h.sorted.findStake_of_mem hst
        exact hprev st hfound rfl
    · rintro ⟨st, rfl | ⟨hst, hid⟩, hsa, rfl⟩
      · exact .inl ⟨hsa, rfl⟩
      · refine .inr ⟨(h.indexed _).mpr ⟨st, hst, hsa, rfl⟩, fun p hp heq => hid ?_⟩
        -- an entry names its stake's id, and the record found under `x.id` has that id
        have hpid : p.id = x.id := t.findStake_id hp
        have hsame : st.id = p.id := congrArg Prod.snd heq
        omega

/-- A write that leaves the stakes and the active index as they were. -/
theorem of_same (h : t.ActiveIndexed) (hstakes : t'.stakes = t.stakes) (hactive : t'.active = t.active)
    (hlast : t.lastId ≤ t'.lastId) : t'.ActiveIndexed where
  sorted := h.sorted.of_stakes hstakes
  fresh st hst := (h.fresh st (hstakes ▸ hst)).trans hlast
  ordered := hactive ▸ h.ordered
  indexed e := by rw [hactive, hstakes]; exact h.indexed e

/-- A saved stake takes the next id, which no stake has yet. -/
theorem saveStake (h : t.ActiveIndexed) (st : Stake) : (t.saveStake st).2.ActiveIndexed := by
  have hnone : t.findStake (t.lastId + 1) = none := by
    cases hf : t.findStake (t.lastId + 1) with
    | none => rfl
    | some s =>
      have hle := h.fresh s (List.mem_of_find?_eq_some hf)
      have hid := t.findStake_id hf
      omega
  have hstakes : (t.saveStake st).2.stakes =
      upsertBy (·.id) { st with id := t.lastId + 1 } t.stakes := rfl
  refine h.write hstakes ?_ (Nat.le_refl _) (Nat.le_succ _)
  show _ = (t.reindex (t.findStake (t.lastId + 1)) _).active
  rw [hnone]
  rfl

/-- A stake found under the written id is below the id counter. -/
theorem id_le_of_found (h : t.ActiveIndexed) {x prev : Stake} (hf : t.findStake x.id = some prev) :
    x.id ≤ t.lastId := by
  have hle := h.fresh prev (List.mem_of_find?_eq_some hf)
  rw [t.findStake_id hf] at hle
  exact hle

theorem updateStake (h : t.ActiveIndexed) (st : Stake) : (t.updateStake st).2.ActiveIndexed := by
  unfold MemoryTables.updateStake
  cases hf : t.findStake st.id with
  | none => exact h
  | some prev =>
    refine h.write rfl ?_ (h.id_le_of_found hf) (Nat.le_refl _)
    rw [hf]

theorem settleClaim (h : t.ActiveIndexed) (st : Stake) (q : Pool) :
    (t.settleClaim st q).2.ActiveIndexed := by
  unfold MemoryTables.settleClaim
  cases hf : t.findStake st.id with
  | none => exact h
  | some prev =>
    dsimp only
    split
    · exact h
    · refine h.write rfl ?_ (h.id_le_of_found hf) (Nat.le_refl _)
      rw [hf]

/-- Each active stake is found under the id of its entry, with that entry. -/
theorem found (h : t.ActiveIndexed) {e : Instant × Nat} (he : e ∈ t.active) :
    ∃ st, t.findStake e.2 = some st ∧ st.indexEntry = e := by
  obtain ⟨st, hst, -, rfl⟩ := (h.indexed e).mp he
  exact ⟨st, h.sorted.findStake_of_mem hst, rfl⟩

/-- The active stakes listed, read back through their entries, are the active index. -/
theorem activeStakes_entries (h : t.ActiveIndexed) : t.activeStakes.map Stake.indexEntry = t.active := by
  unfold activeStakes
  rw [List.map_filterMap]
  refine (List.filterMap_congr fun e he => ?_).trans List.filterMap_some
  -- each entry finds its stake, whose entry it is
  obtain ⟨st, hst, hse⟩ := h.found he
  rcases e with ⟨d, k⟩
  show Option.map Stake.indexEntry (t.findStake k) = some (d, k)
  rw [show t.findStake k = some st from hst, Option.map_some, hse]

/-- The active stakes listed are the stored stakes that are active. -/
theorem mem_activeStakes (h : t.ActiveIndexed) {st : Stake} :
    st ∈ t.activeStakes ↔ st ∈ t.stakes ∧ st.isActive = true := by
  unfold activeStakes
  rw [List.mem_filterMap]
  constructor
  · rintro ⟨⟨d, k⟩, he, hf⟩
    obtain ⟨s, hs, hsa, hse⟩ := (h.indexed _).mp he
    -- the stake found under the entry's id is the one the entry is for
    have hid : s.id = k := congrArg Prod.snd hse
    have hfound : t.findStake k = some s := hid ▸ h.sorted.findStake_of_mem hs
    have hsame : st = s := Option.some.inj (hf.symm.trans hfound)
    rw [hsame]
    exact ⟨hs, hsa⟩
  · rintro ⟨hst, hsa⟩
    exact ⟨st.indexEntry, (h.indexed _).mpr ⟨st, hst, hsa, rfl⟩, h.sorted.findStake_of_mem hst⟩

end ActiveIndexed

namespace AddressesIndexed

/-- A write that leaves the users and the address index as they were. -/
theorem of_same (h : t.AddressesIndexed) (husers : t'.users = t.users)
    (hby : t'.byAddress = t.byAddress) (hlast : t.lastId ≤ t'.lastId) : t'.AddressesIndexed where
  sorted := husers ▸ h.sorted
  fresh u hu := (h.fresh u (husers ▸ hu)).trans hlast
  byAddress := by rw [hby, husers]; exact h.byAddress
  distinct := husers ▸ h.distinct

/-- A registration takes the next id, above every user's, so the user and its address both
go at the end; an address already there is refused. -/
theorem saveUser (h : t.AddressesIndexed) (a : String) (now : Instant) :
    (t.saveUser a now).2.AddressesIndexed := by
  unfold MemoryTables.saveUser
  split
  · exact h
  rename_i hfresh
  have hbelow : ∀ u ∈ t.users, u.id < t.lastId + 1 := fun u hu => Nat.lt_succ_of_le (h.fresh u hu)
  have hnew : a ∉ t.users.map (·.walletAddress) := by
    intro ha
    obtain ⟨u, hu, rfl⟩ := List.mem_map.mp ha
    apply hfresh
    rw [h.byAddress, List.any_eq_true]
    exact ⟨_, List.mem_map_of_mem hu, by simp⟩
  dsimp only [allocate]
  rw [upsertBy_eq_append _ _ hbelow]
  refine ⟨?_, ?_, ?_, ?_⟩
  · exact List.pairwise_append.mpr ⟨h.sorted, List.pairwise_singleton _ _,
      fun u hu v hv => by rw [List.mem_singleton.mp hv]; exact hbelow u hu⟩
  · intro u hu
    rcases List.mem_append.mp hu with hu | hu
    · exact (h.fresh u hu).trans (Nat.le_succ _)
    · rw [List.mem_singleton.mp hu]
  · rw [h.byAddress, List.map_append]
    rfl
  · rw [List.map_append, List.nodup_append]
    refine ⟨h.distinct, List.nodup_singleton _, fun b hb c hc hbc => ?_⟩
    rw [hbc, List.mem_singleton.mp hc] at hb
    exact hnew hb

/-- An address finds the first user with that address. -/
theorem findUserByAddress_eq (h : t.AddressesIndexed) (a : String) :
    t.findUserByAddress a = t.users.find? (·.walletAddress == a) := by
  unfold findUserByAddress
  rw [h.byAddress, List.find?_map]
  cases hu : t.users.find? ((fun p : String × Nat => p.1 == a) ∘ fun u => (u.walletAddress, u.id)) with
  | none =>
    simp only [Function.comp_def] at hu
    simp [hu]
  | some u =>
    simp only [Function.comp_def] at hu
    -- the user is found again under its own id
    have hid : t.findUser u.id = some u :=
      find?_of_mem_pairwise (fun u : User => u.id) h.sorted (List.mem_of_find?_eq_some hu)
    simp [hu, hid]

/-- An address finds exactly the user registered with it. -/
theorem findUserByAddress_iff (h : t.AddressesIndexed) {a : String} {u : User} :
    t.findUserByAddress a = some u ↔ u ∈ t.users ∧ u.walletAddress = a := by
  rw [h.findUserByAddress_eq]
  constructor
  · intro hu
    exact ⟨List.mem_of_find?_eq_some hu, by simpa using List.find?_some hu⟩
  · rintro ⟨hu, rfl⟩
    cases hv : t.users.find? (·.walletAddress == u.walletAddress) with
    | none => exact absurd (beq_self_eq_true u.walletAddress) (List.find?_eq_none.mp hv u hu)
    | some v =>
      -- no two users share an address
      have hvu : v = u := List.inj_on_of_nodup_map h.distinct (List.mem_of_find?_eq_some hv) hu
        (by simpa using List.find?_some hv)
      rw [hvu]

end AddressesIndexed

/-! ## Every write keeps the invariant

Writing a stake touches neither the users nor the address index. -/

@[simp] theorem users_updateStake (st : Stake) : (t.updateStake st).2.users = t.users := by
  unfold MemoryTables.updateStake
  split <;> rfl

@[simp] theorem byAddress_updateStake (st : Stake) :
    (t.updateStake st).2.byAddress = t.byAddress := by
  unfold MemoryTables.updateStake
  split <;> rfl

@[simp] theorem users_settleClaim (st : Stake) (q : Pool) :
    (t.settleClaim st q).2.users = t.users := by
  unfold MemoryTables.settleClaim
  split
  · rfl
  · split <;> rfl

@[simp] theorem byAddress_settleClaim (st : Stake) (q : Pool) :
    (t.settleClaim st q).2.byAddress = t.byAddress := by
  unfold MemoryTables.settleClaim
  split
  · rfl
  · split <;> rfl

namespace Indexed

theorem of_same (h : t.Indexed) (hstakes : t'.stakes = t.stakes) (hactive : t'.active = t.active)
    (husers : t'.users = t.users) (hby : t'.byAddress = t.byAddress) (hlast : t.lastId ≤ t'.lastId) :
    t'.Indexed :=
  ⟨h.active.of_same hstakes hactive hlast, h.addresses.of_same husers hby hlast⟩

theorem saveUser (h : t.Indexed) (a : String) (now : Instant) : (t.saveUser a now).2.Indexed := by
  refine ⟨h.active.of_same (stakes_saveUser a now) ?_ (lastId_saveUser_le t a now),
    h.addresses.saveUser a now⟩
  unfold MemoryTables.saveUser
  split <;> rfl

theorem savePool (h : t.Indexed) (q : Pool) : (t.savePool q).2.Indexed :=
  h.of_same rfl rfl rfl rfl (Nat.le_succ _)

theorem updatePool (h : t.Indexed) (q : Pool) : (t.updatePool q).2.Indexed := by
  unfold MemoryTables.updatePool
  split <;> exact h.of_same rfl rfl rfl rfl (Nat.le_refl _)

theorem deletePool (h : t.Indexed) (k : Nat) : (t.deletePool k).2.Indexed := by
  unfold MemoryTables.deletePool
  split <;> exact h.of_same rfl rfl rfl rfl (Nat.le_refl _)

/-- The stake writes leave the users alone. -/
theorem of_stake_write (h : t.Indexed) (hactive : t'.ActiveIndexed) (husers : t'.users = t.users)
    (hby : t'.byAddress = t.byAddress) (hlast : t.lastId ≤ t'.lastId) : t'.Indexed :=
  ⟨hactive, h.addresses.of_same husers hby hlast⟩

theorem saveStake (h : t.Indexed) (st : Stake) : (t.saveStake st).2.Indexed :=
  h.of_stake_write (h.active.saveStake st) rfl rfl (Nat.le_succ _)

theorem updateStake (h : t.Indexed) (st : Stake) : (t.updateStake st).2.Indexed :=
  h.of_stake_write (h.active.updateStake st) (users_updateStake st) (byAddress_updateStake st)
    (lastId_updateStake t st).ge

theorem settleClaim (h : t.Indexed) (st : Stake) (q : Pool) : (t.settleClaim st q).2.Indexed :=
  h.of_stake_write (h.active.settleClaim st q) (users_settleClaim st q)
    (byAddress_settleClaim st q) (lastId_settleClaim t st q).ge

theorem appendOperation (h : t.Indexed) (kind : OperationKind) (userId : Nat) (description : String)
    (now : Instant) : (t.appendOperation kind userId description now).2.Indexed :=
  h.of_same rfl rfl rfl rfl (Nat.le_succ _)

end Indexed

end MemoryTables

/-! ## Every sequence of store calls -/

/-- A call of the ledger store, with its arguments. -/
inductive StoreCall where
  | saveUser (address : String) (now : Instant)
  | findUser (id : Nat)
  | findUserByAddress (address : String)
  | savePool (pool : Pool)
  | updatePool (pool : Pool)
  | findPool (id : Nat)
  | deletePool (id : Nat)
  | listPools (page : Page)
  | listPoolsByOwner (owner : Nat) (page : Page)
  | countPools
  | saveStake (stake : Stake)
  | updateStake (stake : Stake)
  | findStake (id : Nat)
  | listStakesByPool (pool : Nat)
  | listStakesByUser (user : Nat) (page : Page)
  | listActiveStakes
  | countStakes
  | settleClaim (stake : Stake) (pool : Pool)
  | appendOperation (kind : OperationKind) (user : Nat) (description : String) (now : Instant)
  | listOperationsByUser (user : Nat) (page : Page)
  | saveCursor (lt : Nat)
  | loadCursor

namespace StoreCall

/-- The store after the call; its answer is dropped. -/
def call : StoreCall → Backend → Backend
  | .saveUser a now => fun b => (Backend.saveUser a now b).2
  | .findUser id => fun b => (Backend.findUser id b).2
  | .findUserByAddress a => fun b => (Backend.findUserByAddress a b).2
  | .savePool p => fun b => (Backend.savePool p b).2
  | .updatePool p => fun b => (Backend.updatePool p b).2
  | .findPool id => fun b => (Backend.findPool id b).2
  | .deletePool id => fun b => (Backend.deletePool id b).2
  | .listPools page => fun b => (Backend.listPools page b).2
  | .listPoolsByOwner owner page => fun b => (Backend.listPoolsByOwner owner page b).2
  | .countPools => fun b => (Backend.countPools b).2
  | .saveStake st => fun b => (Backend.saveStake st b).2
  | .updateStake st => fun b => (Backend.updateStake st b).2
  | .findStake id => fun b => (Backend.findStake id b).2
  | .listStakesByPool pool => fun b => (Backend.listStakesByPool pool b).2
  | .listStakesByUser user page => fun b => (Backend.listStakesByUser user page b).2
  | .listActiveStakes => fun b => (Backend.listActiveStakes b).2
  | .countStakes => fun b => (Backend.countStakes b).2
  | .settleClaim st p => fun b => (Backend.settleClaim st p b).2
  | .appendOperation kind user d now => fun b => (Backend.appendOperation kind user d now b).2
  | .listOperationsByUser user page => fun b => (Backend.listOperationsByUser user page b).2
  | .saveCursor lt => fun b => (Backend.saveCursor lt b).2
  | .loadCursor => fun b => (Backend.loadCursor b).2

/-- The store after the calls, one after another. -/
def runAll (cs : List StoreCall) (b : Backend) : Backend := cs.foldl (fun b c => c.call b) b

/-- One call on the in-memory store keeps both indexes exact; a read leaves the store as it
was. -/
theorem indexed {t : MemoryTables} (h : t.Indexed) (c : StoreCall) :
    ∃ t', c.call (.memory t) = .memory t' ∧ t'.Indexed := by
  cases c with
  | saveUser a now => exact ⟨_, rfl, h.saveUser a now⟩
  | savePool p => exact ⟨_, rfl, h.savePool p⟩
  | updatePool p => exact ⟨_, rfl, h.updatePool p⟩
  | deletePool id => exact ⟨_, rfl, h.deletePool id⟩
  | saveStake st => exact ⟨_, rfl, h.saveStake st⟩
  | updateStake st => exact ⟨_, rfl, h.updateStake st⟩
  | settleClaim st p => exact ⟨_, rfl, h.settleClaim st p⟩
  | appendOperation kind user d now => exact ⟨_, rfl, h.appendOperation kind user d now⟩
  | saveCursor lt => exact ⟨_, rfl, h.of_same rfl rfl rfl rfl (Nat.le_refl _)⟩
  | findUser _ | findUserByAddress _ | findPool _ | listPools _ | listPoolsByOwner _ _ | countPools
  | findStake _ | listStakesByPool _ | listStakesByUser _ _ | listActiveStakes | countStakes
  | listOperationsByUser _ _ | loadCursor => exact ⟨t, rfl, h⟩

/-- By induction on the calls, each keeping the invariant. -/
theorem runAll_indexed (cs : List StoreCall) {t : MemoryTables} (h : t.Indexed) :
    ∃ t', runAll cs (.memory t) = .memory t' ∧ t'.Indexed := by
  induction cs generalizing t with
  | nil => exact ⟨t, rfl, h⟩
  | cons c cs ih =>
    obtain ⟨t₁, hc, h₁⟩ := indexed h c
    obtain ⟨t₂, hrun, h₂⟩ := ih h₁
    refine ⟨t₂, ?_, h₂⟩
    show runAll cs (c.call (.memory t)) = _
    rw [hc, hrun]

end StoreCall

/-- After any sequence of calls on the in-memory store, from empty, the active index holds
exactly the entries of the active stakes. Listing the active stakes returns each of them once,
in ascending order of end date and id; and an address finds exactly the user registered with
it. -/
theorem memory_store_indexes (cs : List StoreCall) :
    let b := StoreCall.runAll cs (.memory {})
    ∃ t stakes, b = .memory t ∧ (Backend.listActiveStakes b).1 = .ok stakes ∧
      (∀ e, e ∈ t.active ↔ ∃ st ∈ t.stakes, st.isActive = true ∧ st.indexEntry = e) ∧
      (∀ st, st ∈ stakes ↔ st ∈ t.stakes ∧ st.isActive = true) ∧ stakes.Nodup ∧
      (stakes.map Stake.indexEntry).Pairwise (fun a b => pairLt a b = true) ∧
      ∀ a u, (Backend.findUserByAddress a b).1 = .ok (some u) ↔
        u ∈ t.users ∧ u.walletAddress = a := by
  intro b
  obtain ⟨t, hb, h⟩ := StoreCall.runAll_indexed cs MemoryTables.indexed_empty
  have hb : b = .memory t := hb
  -- the listing reads the index in its order, one stake per entry
  have hordered : (t.activeStakes.map Stake.indexEntry).Pairwise (fun a b => pairLt a b = true) := by
    rw [h.active.activeStakes_entries]
    exact h.active.ordered
  have hnodup : t.activeStakes.Nodup :=
    List.Nodup.of_map Stake.indexEntry (nodup_of_pairwise_pairLt hordered)
  refine ⟨t, t.activeStakes, hb, by rw [hb]; rfl, h.active.indexed,
    fun st => h.active.mem_activeStakes, hnodup, hordered, fun a u => ?_⟩
  rw [hb]
  show Except.ok (t.findUserByAddress a) = _ ↔ _
  rw [Except.ok.injEq]
  exact h.addresses.findUserByAddress_iff

end PoolTreasury
