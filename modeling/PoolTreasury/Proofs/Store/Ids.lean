import PoolTreasury.Store.Backend
import PoolTreasury.Proofs.Encoding.Base64

/-! # Ids on the two stores

Both stores hand out ids from one counter shared by users, pools, stakes and operations.
The in-memory store checks a user's address before it takes an id; the tree store takes the
id first and gives it up on a duplicate address, so the id is spent. Pools, stakes and
operations take the next id on both.

So the tree store runs ahead of the memory store by the number of refused user saves so far,
and by nothing else (`IdsAhead`). One save keeps that relation with the count grown by its
refusal (`IdsAhead.call`). From empty stores the tree store refuses the same saves and
answers the same records, each id raised by the refusals before it
(`tree_saves_shifted_by_refusals`): the two agree only on runs that never save an address
twice.
-/

namespace PoolTreasury

/-! ## Address keys

The tree store keys its address index by the address's UTF-8 bytes; two addresses meet in
that index only when they are equal. -/

theorem utf8Key_inj {a b : String} (h : a.toUTF8.toList = b.toUTF8.toList) : a = b := by
  rw [byteArray_toList, byteArray_toList] at h
  have hbytes : a.toUTF8 = b.toUTF8 := ByteArray.ext (Array.toList_inj.1 h)
  exact String.toByteArray_inj.1 hbytes

theorem utf8Key_beq (a b : String) : (a.toUTF8.toList == b.toUTF8.toList) = (a == b) := by
  rw [Bool.eq_iff_iff, beq_iff_eq, beq_iff_eq]
  exact ⟨utf8Key_inj, fun h => h ▸ rfl⟩

namespace ByteTree

theorem any_insertEntry (key value k : List UInt8) (es : List (List UInt8 × List UInt8)) :
    (insertEntry key value es).any (·.1 == k) = (key == k || es.any (·.1 == k)) := by
  induction es with
  | nil => simp [insertEntry]
  | cons e es ih =>
    unfold insertEntry
    split
    · -- `e` has the key being written and is replaced
      rename_i he
      have he' : e.1 = key := by simpa using he
      simp [he']
    · split
      · simp
      · simp only [List.any_cons, ih]
        exact Bool.or_left_comm _ _ _

@[simp]
theorem containsKey_insert (t : ByteTree) (key value k : List UInt8) :
    (t.insert key value).containsKey k = (key == k || t.containsKey k) :=
  any_insertEntry key value k t.entries

end ByteTree

/-! ## Calls that take an id -/

/-- The store calls that take a fresh id: saving a user, a pool or a stake, and appending an
operation. -/
inductive SaveCall where
  | user (address : String) (now : Instant)
  | pool (pool : Pool)
  | stake (stake : Stake)
  | operation (kind : OperationKind) (userId : Nat) (description : String) (now : Instant)

/-- The record a save answers with. -/
inductive Saved where
  | user (u : User)
  | pool (p : Pool)
  | stake (st : Stake)
  | operation (o : Operation)
deriving DecidableEq

namespace Saved

def id : Saved → Nat
  | .user u => u.id
  | .pool p => p.id
  | .stake st => st.id
  | .operation o => o.id

/-- The record under another id. -/
def withId (n : Nat) : Saved → Saved
  | .user u => .user { u with id := n }
  | .pool p => .pool { p with id := n }
  | .stake st => .stake { st with id := n }
  | .operation o => .operation { o with id := n }

/-- The record with its id raised by `k`. -/
def raise (k : Nat) (x : Saved) : Saved := x.withId (x.id + k)

@[simp]
theorem id_withId (n : Nat) (x : Saved) : (x.withId n).id = n := by
  cases x <;> rfl

@[simp]
theorem withId_withId (n n' : Nat) (x : Saved) : (x.withId n).withId n' = x.withId n' := by
  cases x <;> rfl

theorem raise_withId (k n : Nat) (x : Saved) : (x.withId n).raise k = x.withId (n + k) := by
  simp [raise]

end Saved

namespace SaveCall

/-- A call that answers with what it saved, as a `Saved` record. -/
def answering {α : Type} (wrap : α → Saved) (c : BackendCall α) : BackendCall Saved :=
  fun b => ((c b).1.map wrap, (c b).2)

/-- The call on a concrete store. -/
def call : SaveCall → BackendCall Saved
  | .user address now => answering Saved.user (Backend.saveUser address now)
  | .pool p => answering Saved.pool (Backend.savePool p)
  | .stake st => answering Saved.stake (Backend.saveStake st)
  | .operation kind userId description now =>
    answering Saved.operation (Backend.appendOperation kind userId description now)

/-- The answers of calls made one after another on a store. -/
def answers : List SaveCall → Backend → List (Except StoreError Saved)
  | [], _ => []
  | c :: cs, b => (c.call b).1 :: answers cs (c.call b).2

end SaveCall

/-- How many ids an answer of the memory store costs the tree store beyond the memory
store's own: one for a refusal, none for a saved record. -/
def spentOn : Except StoreError Saved → Nat
  | .ok _ => 0
  | .error _ => 1

/-- Memory store answers as the tree store gives them: each record's id raised by `skipped`
and by the refusals before it. -/
def shiftByRefusals (skipped : Nat) :
    List (Except StoreError Saved) → List (Except StoreError Saved)
  | [] => []
  | r :: rs => r.map (·.raise skipped) :: shiftByRefusals (skipped + spentOn r) rs

/-! ## The two stores in step -/

/-- The tree store `t` runs `skipped` ids ahead of the memory store `m`, and both know the
same addresses. -/
structure IdsAhead (skipped : Nat) (m : MemoryTables) (t : TreeTables) : Prop where
  generated : t.generated = m.lastId + skipped
  addresses : ∀ a : String,
    t.usersByAddress.containsKey a.toUTF8.toList = m.byAddress.any (·.1 == a)

theorem idsAhead_empty : IdsAhead 0 {} {} :=
  ⟨rfl, fun _ => rfl⟩

namespace IdsAhead

variable {skipped : Nat} {m : MemoryTables} {t : TreeTables}

/-- A save on a fresh address, or of a record of another kind: both stores answer with their
next id and know the same addresses after. -/
theorem saved (h : IdsAhead skipped m t) {m' : MemoryTables} {t' : TreeTables}
    (hm : m'.lastId = m.lastId + 1) (ht : t'.generated = t.generated + 1)
    (haddr : ∀ a : String,
      t'.usersByAddress.containsKey a.toUTF8.toList = m'.byAddress.any (·.1 == a)) :
    IdsAhead skipped m' t' :=
  ⟨by rw [ht, hm, h.generated]; omega, haddr⟩

/-- A save that touches no address keeps the address index on both sides. -/
theorem saved_same_addresses (h : IdsAhead skipped m t) {m' : MemoryTables} {t' : TreeTables}
    (hm : m'.lastId = m.lastId + 1) (ht : t'.generated = t.generated + 1)
    (hbm : m'.byAddress = m.byAddress) (hbt : t'.usersByAddress = t.usersByAddress) :
    IdsAhead skipped m' t' :=
  h.saved hm ht fun a => by rw [hbm, hbt, h.addresses]

/-- A record saved under the tree store's next id is the one saved under the memory
store's, with its id raised by `skipped`. -/
theorem next_answer (h : IdsAhead skipped m t) (x : Saved) :
    (Except.ok (x.withId (t.generated + 1)) : Except StoreError Saved) =
      (Except.ok (x.withId (m.lastId + 1)) : Except StoreError Saved).map (·.raise skipped) := by
  rw [h.generated, Nat.add_right_comm]
  exact congrArg Except.ok (Saved.raise_withId skipped _ x).symm

/-- One save on both stores: the tree store answers the memory store's answer raised by
`skipped`, and runs ahead by one more when the memory store refused. -/
theorem call (h : IdsAhead skipped m t) (c : SaveCall) :
    ∃ m' t', (c.call (.memory m)).2 = .memory m' ∧ (c.call (.trees t)).2 = .trees t' ∧
      (c.call (.trees t)).1 = (c.call (.memory m)).1.map (·.raise skipped) ∧
      IdsAhead (skipped + spentOn (c.call (.memory m)).1) m' t' := by
  cases c with
  | user address now =>
    simp only [SaveCall.call, SaveCall.answering, Backend.saveUser, Backend.dispatch,
      MemoryTables.saveUser, TreeTables.saveUser, TreeTables.nextId, MemoryTables.allocate]
    -- both stores look the address up in their own index, and the indexes agree
    have hkey := h.addresses address
    by_cases hdup : m.byAddress.any (·.1 == address) = true
    · -- refused on both; the tree store has spent an id
      have htree : t.usersByAddress.containsKey address.toUTF8.toList = true := hkey.trans hdup
      simp only [hdup, htree, if_true]
      refine ⟨_, _, rfl, rfl, rfl, ⟨?_, h.addresses⟩⟩
      show t.generated + 1 = m.lastId + (skipped + 1)
      rw [h.generated, Nat.add_assoc]
    · have hfresh : m.byAddress.any (·.1 == address) = false := Bool.eq_false_iff.2 hdup
      have htree : t.usersByAddress.containsKey address.toUTF8.toList = false := hkey.trans hfresh
      simp only [hfresh, htree, Bool.false_eq_true, if_false]
      refine ⟨_, _, rfl, rfl, h.next_answer (.user ⟨0, address, now⟩),
        h.saved rfl rfl fun a => ?_⟩
      -- the new key meets only its own address
      simp only [ByteTree.containsKey_insert, utf8Key_beq, h.addresses a, List.any_append,
        List.any_cons, List.any_nil, Bool.or_false]
      exact Bool.or_comm _ _
  -- the other saves answer each store's next id and leave both address indexes alone
  | pool p =>
    exact ⟨(m.savePool p).2, (t.savePool p).2, rfl, rfl, h.next_answer (.pool p),
      h.saved_same_addresses rfl rfl rfl rfl⟩
  | stake st =>
    exact ⟨(m.saveStake st).2, (t.saveStake st).2, rfl, rfl, h.next_answer (.stake st),
      h.saved_same_addresses rfl rfl rfl rfl⟩
  | operation kind userId description now =>
    exact ⟨(m.appendOperation kind userId description now).2,
      (t.appendOperation kind userId description now).2, rfl, rfl,
      h.next_answer (.operation ⟨0, kind, description, userId, now⟩),
      h.saved_same_addresses rfl rfl rfl rfl⟩

/-- Calls one after another: by induction on the calls, each step keeping `IdsAhead` with the
count of refusals so far. -/
theorem answers (h : IdsAhead skipped m t) (cs : List SaveCall) :
    SaveCall.answers cs (.trees t) = shiftByRefusals skipped (SaveCall.answers cs (.memory m)) := by
  induction cs generalizing skipped m t with
  | nil => rfl
  | cons c cs ih =>
    obtain ⟨m', t', hm, ht, hr, h'⟩ := h.call c
    simp only [SaveCall.answers, shiftByRefusals, hm, ht, hr, ih h']

end IdsAhead

/-- A second user at an address is refused on both stores, and the next user takes id 2 in
memory but 3 in the tree store. -/
example :
    (SaveCall.answers [.user "0:a" ⟨0, 0⟩, .user "0:a" ⟨0, 0⟩, .user "0:b" ⟨0, 0⟩]
      (.memory {})).map (·.toOption.map Saved.id) = [some 1, none, some 2] ∧
    (SaveCall.answers [.user "0:a" ⟨0, 0⟩, .user "0:a" ⟨0, 0⟩, .user "0:b" ⟨0, 0⟩]
      (.trees {})).map (·.toOption.map Saved.id) = [some 1, none, some 3] := by
  decide +kernel

end PoolTreasury
