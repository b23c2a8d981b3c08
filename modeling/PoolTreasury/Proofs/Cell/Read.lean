import PoolTreasury.Proofs.Cell.Build

/-! # Reading cells

A slice reads a cell from the front, and what it has not read yet is itself a cell,
`Slice.unread`. A read is specified by a triple over that cell, `Slice.Reads r before post`:
from every slice with `before` left, `r` succeeds, and its value and what it leaves satisfy
`post`. The triples compose along `>>=`, so that the reads of a whole message are put together
from those of its fields. Each field read inverts one store of the builder.
-/

namespace PoolTreasury

/-- A cell is its bits and its references; cells nest, so this is not definitional. -/
@[simp] theorem Cell.mk_bits_refs (c : Cell) : (⟨c.bits, c.refs⟩ : Cell) = c := by
  cases c
  rfl

namespace Slice

/-- The part of the cell a slice has not read yet. -/
def unread (s : Slice) : Cell := ⟨s.cell.bits.drop s.bitPos, s.cell.refs.drop s.refPos⟩

@[simp] theorem unread_slice (c : Cell) : c.slice.unread = c := by
  rcases c with ⟨bits, refs⟩
  rfl

theorem remainingBits_eq (s : Slice) : s.remainingBits = s.unread.bits.length := by
  simp [remainingBits, unread]

theorem remainingRefs_eq (s : Slice) : s.remainingRefs = s.unread.refs.length := by
  simp [remainingRefs, unread]

/-- Moving the bit position past a prefix of the unread bits leaves the rest unread. -/
theorem unread_skip {s : Slice} {xs more : List Bool} {n : Nat} (h : s.unread.bits = xs ++ more)
    (hn : xs.length = n) :
    ({ s with bitPos := s.bitPos + n } : Slice).unread = ⟨more, s.unread.refs⟩ := by
  subst hn
  simp only [unread] at h ⊢
  rw [← List.drop_drop, h, List.drop_left]

/-- Moving the reference position past the first unread reference leaves the others. -/
theorem unread_nextRef {s : Slice} {r : Cell} {rs : List Cell} (h : s.unread.refs = r :: rs) :
    ({ s with refPos := s.refPos + 1 } : Slice).unread = ⟨s.unread.bits, rs⟩ := by
  simp only [unread] at h ⊢
  rw [← List.drop_drop, h, List.drop_succ_cons, List.drop_zero]

/-! ## Triples over the unread cell -/

/-- From every slice with `before` left unread, `r` succeeds, and its value and the cell it
leaves unread satisfy `post`. -/
def Reads {α : Type} (r : Read α) (before : Cell) (post : α → Cell → Prop) : Prop :=
  ∀ s : Slice, s.unread = before → ∃ a s', r.run s = .ok (a, s') ∧ post a s'.unread

/-- `r` reads exactly `a` from `before` and leaves `after`. -/
def ReadsAs {α : Type} (r : Read α) (before : Cell) (a : α) (after : Cell) : Prop :=
  Reads r before fun x c => x = a ∧ c = after

section Rules

variable {α β : Type}

theorem Reads.pure {a : α} {c : Cell} {post : α → Cell → Prop} (h : post a c) :
    Reads (Pure.pure a) c post :=
  fun s hs => ⟨a, s, rfl, hs ▸ h⟩

theorem Reads.bind {x : Read α} {f : α → Read β} {c : Cell} {P : α → Cell → Prop}
    {Q : β → Cell → Prop} (hx : Reads x c P) (hf : ∀ a c', P a c' → Reads (f a) c' Q) :
    Reads (x >>= f) c Q := by
  intro s hs
  obtain ⟨a, s₁, hrun, hpost⟩ := hx s hs
  obtain ⟨b, s₂, hrun', hpost'⟩ := hf a s₁.unread hpost s₁ rfl
  exact ⟨b, s₂, by rw [run_bind_ok hrun, hrun'], hpost'⟩

theorem ReadsAs.bind {x : Read α} {f : α → Read β} {c c' : Cell} {a : α} {Q : β → Cell → Prop}
    (hx : ReadsAs x c a c') (hf : Reads (f a) c' Q) : Reads (x >>= f) c Q :=
  Reads.bind hx fun _ _ ⟨ha, hc⟩ => ha ▸ hc ▸ hf

theorem Reads.mono {r : Read α} {c : Cell} {P Q : α → Cell → Prop} (h : Reads r c P)
    (hPQ : ∀ a c', P a c' → Q a c') : Reads r c Q := by
  intro s hs
  obtain ⟨a, s', hrun, hpost⟩ := h s hs
  exact ⟨a, s', hrun, hPQ a _ hpost⟩

/-- A read that succeeds from a whole cell, run from its slice. -/
theorem Reads.run_slice {r : Read α} {c : Cell} {post : α → Cell → Prop} (h : Reads r c post) :
    ∃ a s', r.run c.slice = .ok (a, s') ∧ post a s'.unread :=
  h c.slice (unread_slice c)

end Rules

/-! ## Reading each kind of field -/

theorem reads_takeBits (xs more : List Bool) (refs : List Cell) :
    ReadsAs (takeBits xs.length) ⟨xs ++ more, refs⟩ xs ⟨more, refs⟩ := by
  intro s hs
  have h : s.unread.bits = xs ++ more := by rw [hs]
  have henough : ¬ xs.length > s.remainingBits := by
    rw [remainingBits_eq, h, List.length_append]
    omega
  have htake : (s.cell.bits.drop s.bitPos).take xs.length = xs := by
    rw [show s.cell.bits.drop s.bitPos = xs ++ more from h, List.take_left]
  refine ⟨xs, { s with bitPos := s.bitPos + xs.length }, ?_, rfl, ?_⟩
  · simp only [takeBits, ensureBits, StateT.run_bind, StateT.run_get, pure_bind, henough,
      if_false, StateT.run_set, StateT.run_pure, htake]
    rfl
  · rw [unread_skip h rfl, hs]

theorem reads_loadBit {b : Bool} {more : List Bool} {refs : List Cell} :
    ReadsAs loadBit ⟨b :: more, refs⟩ b ⟨more, refs⟩ :=
  ReadsAs.bind (reads_takeBits [b] more refs) (Reads.pure ⟨rfl, rfl⟩)

theorem reads_loadU128 {n v : Nat} {more : List Bool} {refs : List Cell} (hn : n ≤ 128)
    (hv : v < 2 ^ n) : ReadsAs (loadU128 n) ⟨bitsOfNat n v ++ more, refs⟩ v ⟨more, refs⟩ := by
  have hsmall : ¬ n > 128 := by omega
  have htake := reads_takeBits (bitsOfNat n v) more refs
  rw [bitsOfNat_length] at htake
  simp only [loadU128, hsmall, if_false]
  refine ReadsAs.bind htake (Reads.pure ⟨?_, rfl⟩)
  rw [natOfBits_bitsOfNat, Nat.mod_eq_of_lt hv]

theorem reads_loadUint {n v : Nat} {more : List Bool} {refs : List Cell} (hn : n ≤ 64)
    (hv : v < 2 ^ n) : ReadsAs (loadUint n) ⟨bitsOfNat n v ++ more, refs⟩ v ⟨more, refs⟩ := by
  have hsmall : ¬ n > 64 := by omega
  simp only [loadUint, hsmall, if_false]
  exact reads_loadU128 (by omega) hv

theorem reads_loadBytes {bytes : List UInt8} {more : List Bool} {refs : List Cell} :
    ReadsAs (loadBytes bytes.length) ⟨bitsOfBytes bytes ++ more, refs⟩ bytes ⟨more, refs⟩ := by
  have htake := reads_takeBits (bitsOfBytes bytes) more refs
  rw [bitsOfBytes_length] at htake
  unfold loadBytes
  rw [Nat.mul_comm]
  exact ReadsAs.bind htake (Reads.pure ⟨bytesOfBits_bitsOfBytes bytes, rfl⟩)

theorem reads_loadCoins {amount : Nat} {more : List Bool} {refs : List Cell}
    (ha : amount < 2 ^ 120) :
    ReadsAs loadCoins ⟨coinsBits amount ++ more, refs⟩ amount ⟨more, refs⟩ := by
  have hlen := coinsLength_le ha
  rw [coinsBits, List.append_assoc]
  exact ReadsAs.bind (reads_loadUint (by decide) (by omega))
    (reads_loadU128 (by omega) (lt_two_pow_coinsLength amount))

theorem reads_loadRef {bits : List Bool} {r : Cell} {rs : List Cell} :
    ReadsAs loadRef ⟨bits, r :: rs⟩ r ⟨bits, rs⟩ := by
  intro s hs
  have h : s.unread.refs = r :: rs := by rw [hs]
  have hget : s.cell.refs[s.refPos]? = some r := by
    have := congrArg (·[0]?) h
    simpa [unread] using this
  refine ⟨r, { s with refPos := s.refPos + 1 }, ?_, rfl, ?_⟩
  · simp only [loadRef, StateT.run_bind, StateT.run_get, pure_bind, hget, StateT.run_set,
      StateT.run_pure]
    rfl
  · rw [unread_nextRef h, hs]

theorem reads_loadAddress {a : MsgAddress} {more : List Bool} {refs : List Cell}
    (hhash : a.hash.length = 32) :
    ReadsAs loadAddress ⟨addressBits a ++ more, refs⟩ (some a) ⟨more, refs⟩ := by
  simp only [addressBits, List.append_assoc, List.cons_append, List.nil_append]
  unfold loadAddress
  refine ReadsAs.bind (reads_loadUint (v := 2) (by decide) (by decide)) ?_
  refine ReadsAs.bind reads_loadBit ?_
  simp only [Bool.false_eq_true, if_false]
  refine ReadsAs.bind (reads_loadUint (by decide) a.workchain.toUInt8.toNat_lt) ?_
  rw [← hhash]
  refine ReadsAs.bind reads_loadBytes (Reads.pure ⟨?_, rfl⟩)
  simp [Nat.toUInt8]

theorem get_run (s : Slice) : (get : Read Slice).run s = .ok (s, s) := rfl

/-- The forward payload a notification carries, inline or in a reference, is read as a slice
with exactly that payload unread. -/
theorem reads_loadEitherRef {forward : Cell} {tail : List Bool} {refs : List Cell}
    (hc : Carries forward tail refs) :
    Reads loadEitherRef ⟨tail, refs⟩ fun fs _ => fs.unread = forward := by
  unfold loadEitherRef
  cases hc with
  | inline =>
    refine ReadsAs.bind reads_loadBit ?_
    simp only [Bool.false_eq_true, if_false]
    -- the rest of this cell is the payload: the slice itself is handed on
    intro s hs
    refine ⟨s, { s with bitPos := s.cell.bits.length, refPos := s.cell.refs.length }, ?_, ?_⟩
    · rw [run_bind_ok (get_run s)]
      rfl
    · show s.unread = forward
      rw [hs, Cell.mk_bits_refs]
  | ref =>
    refine ReadsAs.bind reads_loadBit ?_
    simp only [if_true]
    exact ReadsAs.bind reads_loadRef (Reads.pure (unread_slice forward))

/-- A snake is read as the whole bytes left here, then the bytes of the chain in the first
reference, if there is one. -/
theorem reads_loadSnakeBytes {here : List UInt8} {refs : List Cell} :
    Reads loadSnakeBytes ⟨bitsOfBytes here, refs⟩
      fun v _ => v = here ++ (refs.take 1).flatMap Cell.chainBytes := by
  intro s hs
  have hcount : s.remainingBits / 8 = here.length := by
    rw [remainingBits_eq, hs, bitsOfBytes_length]
    omega
  obtain ⟨v, s₁, hbytes, ⟨rfl, hs₁⟩⟩ :=
    (reads_loadBytes : ReadsAs (loadBytes here.length) ⟨bitsOfBytes here ++ [], refs⟩ here ⟨[], refs⟩)
      s (by rw [hs, List.append_nil])
  have hrefs : s₁.remainingRefs = refs.length := by rw [remainingRefs_eq, hs₁]
  unfold loadSnakeBytes
  rw [run_bind_ok (get_run s), hcount, run_bind_ok hbytes, run_bind_ok (get_run s₁)]
  cases refs with
  | nil =>
    refine ⟨v, s₁, ?_, by simp⟩
    simp only [hrefs, List.length_nil, gt_iff_lt, Nat.lt_irrefl, if_false]
    rfl
  | cons r rs =>
    obtain ⟨r', s₂, hload, ⟨rfl, -⟩⟩ :=
      (reads_loadRef : ReadsAs loadRef ⟨[], r :: rs⟩ r ⟨[], rs⟩) s₁ hs₁
    refine ⟨v ++ r'.chainBytes, s₂, ?_, by simp⟩
    simp only [hrefs, List.length_cons, gt_iff_lt, Nat.zero_lt_succ, if_true]
    rw [run_bind_ok hload]
    rfl

end Slice

/-- The bytes kept in a cell and the chain of the rest, if any, make up the string again. -/
theorem snakeTail_text (bytes : List UInt8) (fit : Nat) :
    bytes.take fit ++
      ((if fit < bytes.length then [snakeCell (bytes.drop fit)] else []).take 1).flatMap
        Cell.chainBytes = bytes := by
  split
  · simp [chainBytes_snakeCell]
  · rename_i hshort
    simp only [List.take_nil, List.flatMap_nil, List.append_nil]
    exact List.take_of_length_le (by omega)

end PoolTreasury
