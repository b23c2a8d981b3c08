import PoolTreasury.Proofs.Cell.Boc

/-! # Bags of cells from untrusted bytes

A bag of cells read off the wire is not trusted. Its header picks the widths of indices and
offsets and the counts of cells, and each cell's descriptor picks its data length and its
number of references. The reader checks each of these before relying on it; this module shows
what the checks buy.

Every cell the reader returns is within the cell limits, at most 1023 bits and four
references, all the way down. The tree it returns is the one the stored cells describe: each
stored reference points to a later cell of the bag, so when the cells are built from the last
to the first every reference finds its cell already built, and the empty cell that stands in
for a missing one is never taken (`boc_readers_fit`).

The reader's steps are followed with `ByteRead.Yields x post`: whatever `x` returns, from any
position, satisfies `post`. It composes along `>>=`, and the checks and skips of the header
each have a rule, so the walk over the reader follows its text.
-/

namespace PoolTreasury

/-! ## What a read can return -/

namespace ByteRead

variable {α β : Type}

/-- Whatever `x` returns, read from any position, satisfies `post`. -/
def Yields (x : ByteRead α) (post : α → Prop) : Prop :=
  ∀ c a c', x.run c = .ok (a, c') → post a

theorem yields_pure {a : α} {post : α → Prop} (h : post a) : Yields (pure a) post := by
  intro c b c' hrun
  cases hrun
  exact h

theorem yields_throw {e : CellError} {post : α → Prop} : Yields (throw e : ByteRead α) post := by
  intro c a c' hrun
  cases hrun

theorem yields_bind {x : ByteRead α} {f : α → ByteRead β} {P : α → Prop} {Q : β → Prop}
    (hx : Yields x P) (hf : ∀ a, P a → Yields (f a) Q) : Yields (x >>= f) Q := by
  intro c b c'' hrun
  rw [StateT.run_bind] at hrun
  cases hx' : x.run c with
  | error e =>
    rw [hx'] at hrun
    cases hrun
  | ok p =>
    rw [hx'] at hrun
    exact hf p.1 (hx c p.1 p.2 hx') p.2 b c'' hrun

theorem yields_true (x : ByteRead α) : Yields x fun _ => True := fun _ _ _ _ => trivial

theorem yields_throw_bind {e : CellError} {k : β → ByteRead α} {Q : α → Prop} :
    Yields (throw e >>= k) Q :=
  yields_bind yields_throw fun _ h => absurd h id

theorem yields_pure_bind {a : β} {k : β → ByteRead α} {Q : α → Prop} (h : Yields (k a) Q) :
    Yields (pure a >>= k) Q := by
  rw [pure_bind]
  exact h

/-- A check that refuses with `e` when `c` holds, before the rest `k` of the read. -/
theorem yields_guard {c : Prop} [Decidable c] {e : CellError} {k : Unit → ByteRead α}
    {Q : α → Prop} (hk : ¬ c → Yields (k ()) Q) : Yields (if c then throw e >>= k else k ()) Q := by
  split
  · exact yields_throw_bind
  · exact hk ‹_›

/-- Bytes skipped when `c` holds, before the rest `k` of the read. -/
theorem yields_skip {c : Prop} [Decidable c] {x : ByteRead β} {k : ByteRead α} {Q : α → Prop}
    (hk : Yields k Q) : Yields (if c then x >>= fun _ => k else k) Q := by
  split
  · exact yields_bind (yields_true x) fun _ _ => hk
  · exact hk

/-- A read run from a given position. -/
theorem Yields.of_run' {x : ByteRead α} {post : α → Prop} (h : Yields x post) {c : ByteCursor}
    {a : α} (hrun : x.run' c = .ok a) : post a := by
  rw [StateT.run'_eq] at hrun
  cases hx : x.run c with
  | error e =>
    rw [hx] at hrun
    cases hrun
  | ok p =>
    rw [hx] at hrun
    cases hrun
    exact h c p.1 p.2 hx

end ByteRead

open ByteRead

/-! ## Each stored cell -/

theorem yields_take (n : Nat) : Yields (ByteCursor.take n) fun bytes => bytes.length = n := by
  intro c bytes c' hrun
  simp only [ByteCursor.take, StateT.run_bind, StateT.run_get, pure_bind] at hrun
  split at hrun
  · rename_i hle
    cases hrun
    simp [hle]
  · cases hrun

/-- The references read for cell `index` all point past it, inside the bag. -/
theorem yields_readRefs (index count refSize k : Nat) :
    Yields (readRefs index count refSize k) fun refs =>
      refs.length = k ∧ ∀ r ∈ refs, index < r ∧ r < count := by
  induction k with
  | zero => exact yields_pure ⟨rfl, by simp⟩
  | succ k ih =>
    unfold readRefs
    refine yields_bind (yields_true _) fun r _ => yields_guard fun hr => ?_
    refine yields_bind ih fun refs hrefs => yields_pure ⟨by simp [hrefs.1], fun r' hr' => ?_⟩
    rcases List.mem_cons.mp hr' with rfl | hr'
    · omega
    · exact hrefs.2 r' hr'

/-- A length byte `d2` stands for `(d2 + 1) / 2` bytes of data, and those for at most 1023 bits:
127 whole bytes, or 128 bytes ending in a marker bit. -/
theorem dataBits_length_le {index d2 : Nat} {data : List UInt8} {bits : List Bool}
    (hd2 : d2 < 256) (hdata : data.length = (d2 + 1) / 2) (h : dataBits index d2 data = .ok bits) :
    bits.length ≤ maxCellBits := by
  unfold dataBits at h
  split at h
  · rename_i heven
    cases h
    rw [bitsOfBytes_length, hdata, maxCellBits]
    omega
  · dsimp only at h
    split at h
    · cases h
    · cases h
      rw [List.length_take, bitsOfBytes_length, hdata, maxCellBits]
      omega

/-- A stored cell as the reader takes it: within the cell limits, and each of its references
names a later cell of the bag. -/
structure RawCell.Fits (count index : Nat) (raw : RawCell) : Prop where
  bits : raw.bits.length ≤ maxCellBits
  refs : raw.refs.length ≤ maxCellRefs
  forward : ∀ r ∈ raw.refs, index < r ∧ r < count

theorem yields_readRawCell (index count refSize : Nat) :
    Yields (readRawCell index count refSize) (RawCell.Fits count index) := by
  unfold readRawCell
  refine yields_bind (yields_true _) fun d1 _ => yields_bind (yields_true _) fun d2 _ => ?_
  refine yields_guard fun _ => yields_guard fun hcount => yields_skip ?_
  refine yields_bind (yields_take _) fun data hdata => ?_
  split
  · rename_i bits hbits
    refine yields_pure_bind (yields_bind (yields_readRefs index count refSize _)
      fun refs hrefs => yields_pure ⟨?_, ?_, hrefs.2⟩)
    · exact dataBits_length_le d2.toNat_lt hdata hbits
    · rw [hrefs.1]
      exact Nat.le_of_not_lt hcount
  · exact yields_throw_bind

/-- The whole bag: `k` stored cells from index `index`, each within the limits with its
references pointing forward. -/
theorem yields_readRawCells (count refSize k : Nat) :
    ∀ index, Yields (readRawCells count refSize index k) fun raws =>
      raws.length = k ∧
        ∀ (j : Nat) (raw : RawCell), raws[j]? = some raw → raw.Fits count (index + j) := by
  induction k with
  | zero => exact fun _ => yields_pure ⟨rfl, by simp⟩
  | succ k ih =>
    intro index
    refine yields_bind (yields_readRawCell index count refSize) fun raw hraw => ?_
    refine yields_bind (ih (index + 1)) fun raws hraws =>
      yields_pure ⟨by simp [hraws.1], fun j r hj => ?_⟩
    cases j with
    | zero =>
      simp only [List.getElem?_cons_zero, Option.some.injEq] at hj
      subst hj
      exact hraw
    | succ j =>
      rw [List.getElem?_cons_succ] at hj
      rw [show index + (j + 1) = index + 1 + j by omega]
      exact hraws.2 j r hj

/-! ## The tree the stored cells describe -/

/-- Every stored cell of the bag is within the limits and refers only to later cells of it. -/
structure BagFits (raws : List RawCell) : Prop where
  cell : ∀ (i : Nat) (raw : RawCell), raws[i]? = some raw → raw.Fits raws.length i

/-- `c` is the tree that stored cell `i` describes: its stored bits, and for each of its stored
references, in order, the tree the referenced cell describes. -/
inductive RawTree (raws : List RawCell) : Nat → Cell → Prop
  | mk {i : Nat} {raw : RawCell} {refs : List Cell} : raws[i]? = some raw →
      raw.refs.length = refs.length →
      (∀ k (hr : k < raw.refs.length) (hc : k < refs.length), RawTree raws raw.refs[k] refs[k]) →
      RawTree raws i ⟨raw.bits, refs⟩

/-- By induction on the description: every cell of it is one stored cell, within the limits. -/
theorem RawTree.fits {raws : List RawCell} (hbag : BagFits raws) {i : Nat} {c : Cell}
    (h : RawTree raws i c) : c.Fits := by
  induction h with
  | mk hi hlen _ ih =>
    have hraw := hbag.cell _ _ hi
    refine .mk hraw.bits (hlen ▸ hraw.refs) fun r hr => ?_
    obtain ⟨k, hk, rfl⟩ := List.getElem_of_mem hr
    exact ih k (hlen ▸ hk) hk

/-- `c` is the tree some bag of well-formed stored cells describes from one of its cells. -/
def Cell.Described (c : Cell) : Prop :=
  ∃ raws : List RawCell, ∃ root < raws.length, BagFits raws ∧ RawTree raws root c

theorem Cell.Described.fits {c : Cell} (h : c.Described) : c.Fits := by
  obtain ⟨raws, _, _, hbag, htree⟩ := h
  exact htree.fits hbag

/-- The cells built so far, the last first, are the trees the stored cells from index `m` on
describe. -/
def Assembled (raws : List RawCell) (m : Nat) (built : Array Cell) : Prop :=
  built.size = raws.length - m ∧
    ∀ i, m ≤ i → i < raws.length → RawTree raws i (built.getD (raws.length - 1 - i) default)

/-- Building the stored cells from the back, cell `m` after every later one: its references
point past it, to cells already built, so each lookup finds the tree it names. -/
theorem assemble_assembled {raws : List RawCell} (hbag : BagFits raws) :
    ∀ m (built : Array Cell), m ≤ raws.length → Assembled raws m built →
      Assembled raws 0 (assemble raws.length ((List.range m).zip (raws.take m)).reverse built) := by
  intro m
  induction m with
  | zero => intro built _ h; simpa [assemble] using h
  | succ m ih =>
    intro built hm hbuilt
    obtain ⟨hsize, hcells⟩ := hbuilt
    have hlt : m < raws.length := by omega
    have hentry : raws[m]? = some raws[m] := List.getElem?_eq_getElem hlt
    have hzip : (List.range (m + 1)).zip (raws.take (m + 1)) =
        (List.range m).zip (raws.take m) ++ [(m, raws[m])] := by
      rw [List.range_succ, List.take_add_one, hentry, List.zip_append (by simp; omega)]
      rfl
    rw [hzip, List.reverse_append]
    simp only [List.reverse_singleton, List.singleton_append, assemble]
    apply ih _ (by omega)
    refine ⟨by simp [hsize]; omega, fun i hmi hi => ?_⟩
    rcases Nat.eq_or_lt_of_le hmi with rfl | hlater
    · rw [show raws.length - 1 - m = built.size by omega, Array.getD_push_size]
      refine .mk hentry (List.length_map _).symm fun k hr _ => ?_
      rw [List.getElem_map]
      -- the reference points past cell `m`, to a cell built before it
      have hfwd := (hbag.cell m raws[m] hentry).forward _ (List.getElem_mem hr)
      exact hcells _ (by omega) hfwd.2
    · rw [Array.getD_push_of_lt (by omega)]
      exact hcells i hlater hi

/-! ## The whole reader -/

/-- The header checks pass on every path that returns; the stored cells are read, all within
the limits and pointing forward, and the root is inside the bag. -/
theorem yields_ofBoc : Yields Cell.ofBoc.go Cell.Described := by
  unfold Cell.ofBoc.go
  refine yields_bind (yields_take 4) fun magic _ => yields_guard fun _ => ?_
  refine yields_bind (yields_true _) fun flags _ => yields_guard fun _ => ?_
  refine yields_bind (yields_true _) fun offSize _ => yields_guard fun _ => ?_
  refine yields_bind (yields_true _) fun cellCount _ => ?_
  refine yields_bind (yields_true _) fun rootCount _ => ?_
  refine yields_bind (yields_true _) fun _ _ => ?_
  refine yields_bind (yields_true _) fun totalSize _ => yields_guard fun _ => yields_guard fun _ => ?_
  refine yields_bind (yields_true _) fun root _ => ?_
  refine yields_bind (yields_true _) fun _ _ => yields_skip ?_
  refine yields_bind (yields_true _) fun cellsData _ => yields_skip ?_
  dsimp only
  split
  · rename_i raws hraws
    obtain ⟨hlen, hfits⟩ := (yields_readRawCells cellCount _ cellCount 0).of_run' hraws
    subst hlen
    have hbag : BagFits raws := ⟨fun j raw hj => by simpa using hfits j raw hj⟩
    refine yields_pure_bind ?_
    split
    · rename_i hroot
      -- every stored cell is built, the root among them
      have hbuilt := assemble_assembled hbag raws.length #[] (Nat.le_refl _)
        ⟨by simp, fun i hi hlt => absurd hlt (by omega)⟩
      rw [List.take_length] at hbuilt
      exact yields_pure ⟨raws, root, hroot, hbag, hbuilt.2 root (Nat.zero_le _) hroot⟩
    · exact yields_throw
  · exact yields_throw_bind

/-- The first root of a bag of cells, when the reader returns one, is the tree the bag's stored
cells describe. -/
theorem Cell.ofBoc_described {bytes : List UInt8} {c : Cell} (h : Cell.ofBoc bytes = .ok c) :
    c.Described :=
  yields_ofBoc.of_run' h

/-- Whatever bag of cells the readers are given, as bytes or as base64 text, a tree they return
is within the cell limits all the way down, and it is the tree the bag's stored cells describe:
each stored reference points to a later cell, and each is resolved to the tree built for it.
The limits are the only bound on what comes back: every tree within them whose flattening the
index width can count is read back from the bag written for it. -/
theorem boc_readers_fit :
    (∀ bytes c, Cell.ofBoc bytes = .ok c → c.Fits ∧ c.Described) ∧
      (∀ text c, Cell.ofBocBase64 text = .ok c → c.Fits ∧ c.Described) ∧
      ∀ c : Cell, c.Fits → (preorder 0 c).length < 2 ^ 32 → Cell.ofBoc c.toBoc = .ok c := by
  have hbytes : ∀ bytes c, Cell.ofBoc bytes = .ok c → c.Fits ∧ c.Described :=
    fun _ _ h => ⟨(Cell.ofBoc_described h).fits, Cell.ofBoc_described h⟩
  refine ⟨hbytes, fun text c h => ?_, fun c hc hsize => Cell.ofBoc_toBoc hc hsize⟩
  unfold Cell.ofBocBase64 at h
  split at h
  · exact hbytes _ c h
  · cases h

/-- A root with no bits and one reference, to a cell of the eight bits of 0xab. -/
def twoCellTree : Cell := ⟨[], [⟨[true, false, true, false, true, false, true, true], []⟩]⟩

/-- The bag written for `twoCellTree`: one-byte indices and offsets, two cells in six bytes,
root 0; the root's descriptor says one reference and no data, the leaf's one whole byte. -/
def twoCellBag : List UInt8 :=
  bocMagic ++ [1, 1, 2, 1, 0, 6, 0] ++ [1, 0, 1] ++ [0, 2, 0xab]

theorem twoCellBag_fits :
    twoCellTree.Fits ∧ twoCellTree.Described ∧ Cell.ofBoc twoCellTree.toBoc = .ok twoCellTree := by
  obtain ⟨hfits, hdescribed⟩ := boc_readers_fit.1 twoCellBag twoCellTree rfl
  exact ⟨hfits, hdescribed, boc_readers_fit.2.2 twoCellTree hfits (by decide)⟩

end PoolTreasury
