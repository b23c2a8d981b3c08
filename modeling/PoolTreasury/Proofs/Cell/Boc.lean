import Mathlib.Algebra.Order.BigOperators.Group.List
import Mathlib.Tactic.IntervalCases
import PoolTreasury.Proofs.Cell.Bits
import PoolTreasury.Proofs.Cell.Layout
import PoolTreasury.Proofs.Encoding.Base64

/-! # Reading back a bag of cells

The writer emits a header, then one entry per cell of the pre-order: two descriptor bytes, the
data with its end marker, and the reference indices in the width it chose. Each reading step
of the parser is matched here with the bytes the writer put at that place; the lemmas are
stated over the written bytes followed by any rest, so that they chain one after the other.
The main result, `Cell.ofBoc_toBoc`, is that every tree within the cell limits whose
flattening the index width can count reads back as itself.
-/

namespace PoolTreasury

open ByteCursor

/-! ## Reading steps -/

section Steps

variable {σ ε α β : Type}

/-- A step that succeeded passes its answer and its state on to the rest: reading bytes, reading
a cell and building one all chain this way. -/
theorem run_bind_ok {x : StateT σ (Except ε) α} {f : α → StateT σ (Except ε) β} {s s' : σ} {a : α}
    (h : x.run s = .ok (a, s')) : (x >>= f).run s = (f a).run s' := by
  rw [StateT.run_bind, h]
  rfl

theorem take_run_append {n : Nat} (xs rest : List UInt8) (off : Nat) (h : xs.length = n) :
    (ByteCursor.take n).run ⟨xs ++ rest, off⟩ = .ok (xs, ⟨rest, off + n⟩) := by
  subst h
  have hle : xs.length ≤ (xs ++ rest).length := by simp
  simp only [ByteCursor.take, StateT.run_bind, StateT.run_get, pure_bind, hle, if_true,
    StateT.run_set, StateT.run_pure, List.drop_left, List.take_left]
  rfl

theorem take_run_all (xs : List UInt8) (off : Nat) :
    (ByteCursor.take xs.length).run ⟨xs, off⟩ = .ok (xs, ⟨[], off + xs.length⟩) := by
  simpa using take_run_append xs [] off rfl

theorem take_run_zero (c : ByteCursor) : (ByteCursor.take 0).run c = .ok ([], c) := by
  simp only [ByteCursor.take, StateT.run_bind, StateT.run_get, pure_bind, Nat.zero_le, if_true,
    StateT.run_set, StateT.run_pure, List.drop_zero, List.take_zero, Nat.add_zero]
  rfl

theorem readByte_run_cons (b : UInt8) (rest : List UInt8) (off : Nat) :
    ByteCursor.readByte.run ⟨b :: rest, off⟩ = .ok (b, ⟨rest, off + 1⟩) := by
  unfold ByteCursor.readByte
  have h : (ByteCursor.take 1).run ⟨b :: rest, off⟩ = .ok ([b], ⟨rest, off + 1⟩) :=
    take_run_append [b] rest off rfl
  rw [run_bind_ok h]
  rfl

end Steps

/-! ## Numbers of a fixed width -/

@[simp] theorem uintBytes_length (v size : Nat) : (uintBytes v size).length = size := by
  simp [uintBytes]

theorem uintBytes_succ (v size : Nat) :
    uintBytes v (size + 1) = (v / 256 ^ size % 256).toUInt8 :: uintBytes v size := by
  simp [uintBytes, List.range_succ]

theorem foldl_uintBytes (v size acc : Nat) :
    (uintBytes v size).foldl (fun acc b => acc * 256 + b.toNat) acc =
      acc * 256 ^ size + v % 256 ^ size := by
  induction size generalizing acc with
  | zero => simp [uintBytes, Nat.mod_one]
  | succ size ih =>
    have hd : (v / 256 ^ size % 256).toUInt8.toNat = v / 256 ^ size % 256 := by
      simp [Nat.toUInt8, UInt8.toNat_ofNat']
    rw [uintBytes_succ, List.foldl_cons, ih, hd, Nat.mod_pow_succ]
    ring

/-- A number written in a width that holds it reads back as itself. -/
theorem readUint_run_append {v size : Nat} (hv : v < 256 ^ size) (rest : List UInt8)
    (off : Nat) :
    (ByteCursor.readUint size).run ⟨uintBytes v size ++ rest, off⟩ =
      .ok (v, ⟨rest, off + size⟩) := by
  unfold ByteCursor.readUint
  rw [run_bind_ok (take_run_append _ rest off (uintBytes_length v size)),
    foldl_uintBytes, Nat.mod_eq_of_lt hv, Nat.zero_mul, Nat.zero_add]
  rfl

theorem bytesNeeded_eq (v : Nat) : bytesNeeded v =
    if v < 256 then 1 else if v < 256 ^ 2 then 2 else if v < 256 ^ 3 then 3 else
    if v < 256 ^ 4 then 4 else if v < 256 ^ 5 then 5 else if v < 256 ^ 6 then 6 else
    if v < 256 ^ 7 then 7 else 8 := by
  unfold bytesNeeded
  rw [show List.range 7 = [0, 1, 2, 3, 4, 5, 6] from rfl]
  split_ifs <;> simp_all

/-- The width the writer picks holds the value, and is one to eight bytes. -/
theorem bytesNeeded_spec {v : Nat} (hv : v < 256 ^ 8) :
    1 ≤ bytesNeeded v ∧ bytesNeeded v ≤ 8 ∧ v < 256 ^ bytesNeeded v := by
  rw [bytesNeeded_eq]
  split_ifs <;> omega

theorem bytesNeeded_le_four {v : Nat} (hv : v < 256 ^ 4) : bytesNeeded v ≤ 4 := by
  rw [bytesNeeded_eq]
  split_ifs <;> omega

/-- The low bits of a small number are the number, and its flag bits are clear. -/
theorem small_and {n : Nat} (h : n ≤ 4) :
    n &&& 7 = n ∧ n &&& 8 = 0 ∧ n &&& 16 = 0 ∧ n &&& 64 = 0 ∧ n &&& 128 = 0 := by
  interval_cases n <;> decide

/-! ## One cell -/

theorem taggedData_length (bits : List Bool) :
    (taggedData bits).length = (bits.length + 7) / 8 := by
  unfold taggedData
  split
  · simp
  · simp only [bytesOfBits_length, List.length_append, List.length_singleton]
    omega

/-- The data bytes of a cell, with the end marker after a partial last byte, read back as
exactly the cell's bits. -/
theorem dataBits_taggedData (index : Nat) (bits : List Bool) :
    dataBits index (bits.length / 8 + (bits.length + 7) / 8) (taggedData bits) = .ok bits := by
  unfold dataBits taggedData
  by_cases h8 : bits.length % 8 = 0
  · have heven : (bits.length / 8 + (bits.length + 7) / 8) % 2 = 0 := by omega
    rw [if_pos heven, if_pos h8, bitsOfBytes_bytesOfBits, h8]
    simp
  · have hodd : ¬ (bits.length / 8 + (bits.length + 7) / 8) % 2 = 0 := by omega
    rw [if_neg hodd, if_neg h8]
    -- the marked bits fill whole bytes after `p` zeros of padding
    obtain ⟨p, hp⟩ : ∃ p, p = (8 - (bits.length + 1) % 8) % 8 := ⟨_, rfl⟩
    have hmarked : bitsOfBytes (bytesOfBits (bits ++ [true])) =
        bits ++ true :: List.replicate p false := by
      rw [bitsOfBytes_bytesOfBits, hp]; simp
    have hlen : (bytesOfBits (bits ++ [true])).length = bits.length / 8 + 1 := by
      simp; omega
    obtain ⟨init, last, hsplit⟩ : ∃ init last, bytesOfBits (bits ++ [true]) = init ++ [last] :=
      ⟨_, _, (List.dropLast_append_getLast (List.ne_nil_of_length_pos (by omega))).symm⟩
    have hinit : init.length = bits.length / 8 := by
      have := congrArg List.length hsplit
      simp only [List.length_append, List.length_singleton] at this
      omega
    have hlast : bitsOfNat 8 last.toNat =
        bits.drop (8 * init.length) ++ true :: List.replicate p false := by
      have := congrArg (List.drop (8 * init.length)) hmarked
      rw [hsplit, bitsOfBytes_append, ← bitsOfBytes_length init, List.drop_left,
        List.drop_append_of_le_length (by simp; omega)] at this
      simpa [bitsOfBytes, Nat.mul_comm] using this
    have hnonzero : last.toNat ≠ 0 := by
      intro h0
      rw [h0, bitsOfNat_zero] at hlast
      have : true ∈ List.replicate 8 false := by rw [hlast]; simp
      simp at this
    have hget : (init ++ [last]).getLastD 0 = last := by simp
    rw [hsplit, hget, if_neg hnonzero, trailingZeros_of_bits last.toNat_lt hlast, ← hsplit, hmarked,
      hlen]
    congr 1
    rw [List.take_left']
    omega

/-- The bytes a bag of cells gives one cell: two descriptor bytes, the data with its end
marker, and the indices of the references. -/
def cellEntry (refSize : Nat) (d : Cell) (refs : List Nat) : List UInt8 :=
  [(d.refs.length % 256).toUInt8, ((d.bits.length / 8 + (d.bits.length + 7) / 8) % 256).toUInt8] ++
    taggedData d.bits ++ refs.flatMap fun r => uintBytes r refSize

/-- What reading a cell's entry back relies on: the cell is within the limits, and it has one
index per reference, each later than the entry, inside the bag and within the index width. -/
structure EntryFits (count refSize index : Nat) (d : Cell) (is : List Nat) : Prop where
  bits : d.bits.length ≤ maxCellBits
  refs : d.refs.length ≤ maxCellRefs
  indices : is.length = d.refs.length
  bounds : ∀ r ∈ is, index < r ∧ r < count ∧ r < 256 ^ refSize

theorem cellEntry_length (refSize : Nat) (d : Cell) (is : List Nat) :
    (cellEntry refSize d is).length = 2 + (d.bits.length + 7) / 8 + refSize * is.length := by
  simp [cellEntry, taggedData_length, List.length_flatMap, Nat.mul_comm]
  omega

theorem readRefs_run_append {index count refSize : Nat} (refs : List Nat)
    (hrefs : ∀ r ∈ refs, index < r ∧ r < count ∧ r < 256 ^ refSize) (rest : List UInt8)
    (off : Nat) :
    (readRefs index count refSize refs.length).run
        ⟨refs.flatMap (uintBytes · refSize) ++ rest, off⟩ =
      .ok (refs, ⟨rest, off + refSize * refs.length⟩) := by
  induction refs generalizing off with
  | nil => rfl
  | cons r rs ih =>
    obtain ⟨hlo, hhi, hfit⟩ := hrefs r (by simp)
    rw [List.length_cons, readRefs, List.flatMap_cons, List.append_assoc,
      run_bind_ok (readUint_run_append hfit _ _)]
    have hn : ¬ (r ≤ index ∨ r ≥ count) := by omega
    simp only [hn, if_false]
    rw [run_bind_ok (ih (fun r hr => hrefs r (List.mem_cons_of_mem _ hr)) _),
      show off + refSize * (rs.length + 1) = off + refSize + refSize * rs.length by ring]
    rfl

/-- An entry takes at least its two descriptor bytes and, with indices of at most four bytes, at
most 146. -/
theorem cellEntry_length_bounds {count refSize index : Nat} {d : Cell} {is : List Nat}
    (h : EntryFits count refSize index d is) (hwidth : refSize ≤ 4) :
    2 ≤ (cellEntry refSize d is).length ∧ (cellEntry refSize d is).length ≤ 146 := by
  have hb : d.bits.length ≤ 1023 := h.bits
  have hr : is.length ≤ 4 := h.indices ▸ h.refs
  have hidx : refSize * is.length ≤ 4 * 4 := Nat.mul_le_mul hwidth hr
  rw [cellEntry_length]
  omega

/-- A cell's entry reads back as its bits and its reference indices. -/
theorem readRawCell_run_append {count refSize index : Nat} {d : Cell} {is : List Nat}
    (h : EntryFits count refSize index d is) (rest : List UInt8) (off : Nat) :
    (readRawCell index count refSize).run ⟨cellEntry refSize d is ++ rest, off⟩ =
      .ok (⟨d.bits, is⟩, ⟨rest, off + (cellEntry refSize d is).length⟩) := by
  have hrefs : d.refs.length ≤ 4 := h.refs
  obtain ⟨h7, h8, h16, -, -⟩ := small_and hrefs
  have hd1 : (d.refs.length % 256).toUInt8.toNat = d.refs.length := by
    simp [Nat.toUInt8, UInt8.toNat_ofNat']; omega
  have hd2 : ((d.bits.length / 8 + (d.bits.length + 7) / 8) % 256).toUInt8.toNat =
      d.bits.length / 8 + (d.bits.length + 7) / 8 := by
    have := h.bits
    simp only [maxCellBits] at this
    simp [Nat.toUInt8, UInt8.toNat_ofNat']; omega
  have hmax : ¬ d.refs.length > maxCellRefs := by simp only [maxCellRefs]; omega
  rw [cellEntry_length]
  unfold readRawCell cellEntry
  simp only [List.cons_append, List.nil_append, List.append_assoc]
  rw [run_bind_ok (readByte_run_cons _ _ _),
    run_bind_ok (readByte_run_cons _ _ _)]
  simp only [hd1, hd2, h8, h7, h16, ne_eq, not_true_eq_false, if_false, hmax]
  rw [run_bind_ok (take_run_append (taggedData d.bits) _ _
    (by rw [taggedData_length]; omega)), dataBits_taggedData]
  dsimp only
  rw [pure_bind, ← h.indices, run_bind_ok (readRefs_run_append is h.bounds rest _)]
  rw [show off + 1 + 1 + (d.bits.length / 8 + (d.bits.length + 7) / 8 + 1) / 2 +
    refSize * is.length = off + (2 + (d.bits.length + 7) / 8 + refSize * is.length) by omega]
  rfl

/-- The entries of consecutive cells read back as their stored cells, one after another. -/
theorem readRawCells_run_append {count refSize : Nat} (es : List (Cell × List Nat)) (index : Nat)
    (h : ∀ i d is, es[i]? = some (d, is) → EntryFits count refSize (index + i) d is)
    (rest : List UInt8) (off : Nat) :
    ∃ off', (readRawCells count refSize index es.length).run
        ⟨es.flatMap (fun e => cellEntry refSize e.1 e.2) ++ rest, off⟩ =
      .ok (es.map RawCell.ofEntry, ⟨rest, off'⟩) := by
  induction es generalizing index off with
  | nil => exact ⟨off, rfl⟩
  | cons e es ih =>
    obtain ⟨off', hrest⟩ := ih (index + 1)
      (fun i d is he => by simpa [Nat.add_assoc, Nat.add_comm 1 i] using h (i + 1) d is he) _
    have hhead : EntryFits count refSize index e.1 e.2 := h 0 e.1 e.2 (by simp)
    refine ⟨off', ?_⟩
    rw [List.length_cons, readRawCells, List.flatMap_cons, List.append_assoc,
      run_bind_ok (readRawCell_run_append hhead _ _),
      run_bind_ok hrest]
    rfl

/-! ## The whole bag -/

theorem forall₂_exists_of_mem_left {α β : Type} {R : α → β → Prop} :
    ∀ {l₁ : List α} {l₂ : List β}, List.Forall₂ R l₁ l₂ → ∀ a ∈ l₁, ∃ b, R a b
  | _, _, .nil => by simp
  | _, _, .cons h t => by
    intro a ha
    rcases List.mem_cons.mp ha with rfl | ha
    · exact ⟨_, h⟩
    · exact forall₂_exists_of_mem_left t a ha

/-- The entries of a fitting tree's flattening read back within a bag of its size. -/
theorem preorder_entryFits {c : Cell} (hc : c.Fits) {refSize : Nat}
    (hwidth : (preorder 0 c).length ≤ 256 ^ refSize) :
    ∀ i d is, (preorder 0 c)[i]? = some (d, is) →
      EntryFits (preorder 0 c).length refSize (0 + i) d is := by
  intro i d is hi
  have hfits := preorder_fits 0 c hc (d, is) (List.mem_of_getElem? hi)
  have hlinked := preorder_linked 0 c i d is hi
  cases hfits with
  | mk hbits hrefs _ =>
    refine ⟨hbits, hrefs, hlinked.length_eq, fun r hr => ?_⟩
    obtain ⟨_, hlt, js, hr'⟩ := forall₂_exists_of_mem_left hlinked r hr
    -- a reference index names an entry of the flattening, so it is inside the bag
    have hin : r < (preorder 0 c).length := by
      simpa using (List.getElem?_eq_some_iff.mp hr').1
    exact ⟨hlt, hin, by omega⟩

/-- A bag with a single root at index 0, no offset index and no checksum, whose counts fit the
widths of its header, reads as its raw cells assembled from the back. -/
theorem Cell.ofBoc_singleRoot {refSize offSize n : Nat} {cells : List UInt8} {raw : List RawCell}
    (hr : 1 ≤ refSize ∧ refSize ≤ 4) (ho : 1 ≤ offSize ∧ offSize ≤ 8)
    (hn : 1 ≤ n ∧ n < 256 ^ refSize ∧ 2 * n ≤ cells.length) (hlen : cells.length < 256 ^ offSize)
    (hraw : (readRawCells n refSize 0 n).run' ⟨cells, 0⟩ = .ok raw) :
    Cell.ofBoc (bocMagic ++ [refSize.toUInt8, offSize.toUInt8] ++ uintBytes n refSize ++
        uintBytes 1 refSize ++ uintBytes 0 refSize ++ uintBytes cells.length offSize ++
        uintBytes 0 refSize ++ cells) =
      .ok ((assemble n ((List.range n).zip raw).reverse #[]).getD (n - 1) default) := by
  obtain ⟨h7, -, -, h64, h128⟩ := small_and hr.2
  have hflags : refSize.toUInt8.toNat = refSize := by
    simp [Nat.toUInt8, UInt8.toNat_ofNat']; omega
  have hoff : offSize.toUInt8.toNat = offSize := by
    simp [Nat.toUInt8, UInt8.toNat_ofNat']; omega
  have hw : 256 ≤ 256 ^ refSize := Nat.le_self_pow (by omega) 256
  -- every check of the header passes
  have hr_ok : ¬ (refSize = 0 ∨ refSize > 4) := by omega
  have ho_ok : ¬ (offSize = 0 ∨ offSize > 8) := by omega
  have hcount_ok : ¬ (n = 0 ∨ n > cells.length / 2) := by omega
  have hroot_ok : 0 < n := hn.1
  unfold Cell.ofBoc Cell.ofBoc.go
  simp only [List.append_assoc, List.cons_append, List.nil_append]
  rw [StateT.run'_eq, run_bind_ok (take_run_append (n := 4) bocMagic _ 0 rfl)]
  simp only [ne_eq, not_true_eq_false, if_false]
  rw [run_bind_ok (readByte_run_cons _ _ _)]
  simp only [hflags, h7, hr_ok, if_false]
  rw [run_bind_ok (readByte_run_cons _ _ _)]
  simp only [hoff, ho_ok, if_false]
  rw [run_bind_ok (readUint_run_append hn.2.1 _ _),
    run_bind_ok (readUint_run_append (v := 1) (by omega) _ _),
    run_bind_ok (readUint_run_append (v := 0) (by omega) _ _),
    run_bind_ok (readUint_run_append hlen _ _)]
  simp only [Nat.one_ne_zero, hcount_ok, if_false]
  rw [run_bind_ok (readUint_run_append (v := 0) (by omega) _ _),
    Nat.sub_self, Nat.zero_mul, run_bind_ok (take_run_zero _)]
  simp only [h128, h64, not_true_eq_false, if_false]
  rw [run_bind_ok (take_run_all cells _), hraw]
  simp only [Functor.map, Except.map, pure_bind, hroot_ok, if_true, Nat.sub_zero]
  rfl

/-- Every cell tree within the cell limits whose pre-order flattening has fewer than 2^32 cells
reads back from its bag of cells as itself. -/
theorem Cell.ofBoc_toBoc {c : Cell} (hc : c.Fits) (hsize : (preorder 0 c).length < 2 ^ 32) :
    Cell.ofBoc c.toBoc = .ok c := by
  -- the widths the writer chose hold the counts they are used for
  have hpos : 1 ≤ (preorder 0 c).length := preorder_length_pos 0 c
  obtain ⟨hr1, -, hrfit⟩ := bytesNeeded_spec (v := (preorder 0 c).length) (by omega)
  have hr4 : bytesNeeded (preorder 0 c).length ≤ 4 := bytesNeeded_le_four (by omega)
  have hfits := preorder_entryFits hc (Nat.le_of_lt hrfit)
  have hentry : ∀ e ∈ preorder 0 c,
      2 ≤ (cellEntry (bytesNeeded (preorder 0 c).length) e.1 e.2).length ∧
        (cellEntry (bytesNeeded (preorder 0 c).length) e.1 e.2).length ≤ 146 := by
    intro e he
    obtain ⟨i, hi, hget⟩ := List.getElem_of_mem he
    exact cellEntry_length_bounds (hfits i e.1 e.2 (by rw [List.getElem?_eq_getElem hi, hget])) hr4
  -- the cell data is two to 146 bytes a cell
  set cells := (preorder 0 c).flatMap fun e => cellEntry (bytesNeeded (preorder 0 c).length) e.1 e.2
  have hsizes : ∀ x ∈ (preorder 0 c).map fun e =>
      (cellEntry (bytesNeeded (preorder 0 c).length) e.1 e.2).length, 2 ≤ x ∧ x ≤ 146 := by
    intro x hx
    obtain ⟨e, he, rfl⟩ := List.mem_map.mp hx
    exact hentry e he
  have hcl : 2 * (preorder 0 c).length ≤ cells.length := by
    rw [List.length_flatMap]
    simpa [Nat.mul_comm] using List.card_nsmul_le_sum _ 2 fun x hx => (hsizes x hx).1
  have hch : cells.length ≤ 146 * (preorder 0 c).length := by
    rw [List.length_flatMap]
    simpa [Nat.mul_comm] using List.sum_le_card_nsmul _ 146 fun x hx => (hsizes x hx).2
  obtain ⟨ho1, ho8, hofit⟩ := bytesNeeded_spec (v := cells.length) (by omega)
  obtain ⟨_, hraw⟩ := readRawCells_run_append (preorder 0 c) 0 hfits [] 0
  rw [List.append_nil] at hraw
  have hread := Cell.ofBoc_singleRoot ⟨hr1, hr4⟩ ⟨ho1, ho8⟩ ⟨hpos, hrfit, hcl⟩ hofit
    (by rw [StateT.run'_eq, hraw]; rfl)
  rw [assemble_preorder] at hread
  exact hread

/-- A cell tree within the cell limits whose pre-order flattening has fewer than 2^32 cells
reads back as itself from its bag of cells, written as bytes or as standard base64 text. -/
theorem Cell.boc_roundTrip {c : Cell} (hc : c.Fits) (hsize : (preorder 0 c).length < 2 ^ 32) :
    Cell.ofBoc c.toBoc = .ok c ∧ Cell.ofBocBase64 c.toBocBase64 = .ok c := by
  have hbytes := Cell.ofBoc_toBoc hc hsize
  refine ⟨hbytes, ?_⟩
  unfold Cell.ofBocBase64 Cell.toBocBase64
  rw [base64Decode_trimWhite_encode]
  exact hbytes

theorem Cell.boc_roundTrip_twoCells :
    Cell.ofBoc (Cell.mk [true, false, true] [Cell.mk [false] []]).toBoc =
        .ok (Cell.mk [true, false, true] [Cell.mk [false] []]) ∧
      Cell.ofBocBase64 (Cell.mk [true, false, true] [Cell.mk [false] []]).toBocBase64 =
        .ok (Cell.mk [true, false, true] [Cell.mk [false] []]) :=
  Cell.boc_roundTrip
    (.mk (by decide) (by decide) (by
      simp only [List.mem_singleton, forall_eq]
      exact .mk (by decide) (by decide) (by simp)))
    (by decide)

end PoolTreasury
