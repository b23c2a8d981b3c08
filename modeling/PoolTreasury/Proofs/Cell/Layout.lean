import Mathlib.Data.List.Forall2
import PoolTreasury.Cell.Boc

/-! # A tree of cells laid out as a list

A bag of cells stores a tree as a flat list in pre-order: each entry is a cell with the
indices of the entries holding its references, and every reference points to a later entry.
`Linked` states that shape for a list whose first entry stands at some index; the writer's
`preorder` produces it, and the reader's `assemble`, working from the last entry to the
first, rebuilds every entry's cell from it. Together these are the structural half of the
round trip of the codec; the byte half is in `Proofs.Cell.Boc`.
-/

namespace PoolTreasury

/-- Every cell of the tree holds at most `maxCellBits` bits and `maxCellRefs` references, as a
cell built with the builder does. -/
inductive Cell.Fits : Cell → Prop
  | mk {bits : List Bool} {refs : List Cell} :
      bits.length ≤ maxCellBits → refs.length ≤ maxCellRefs → (∀ r ∈ refs, r.Fits) →
      Cell.Fits ⟨bits, refs⟩

theorem Cell.Fits.refs_length_le {c : Cell} (h : c.Fits) : c.refs.length ≤ maxCellRefs := by
  cases h with
  | mk _ hrefs _ => exact hrefs

/-- Entry `i` of `order` stands at index `start + i`; each entry lists the indices of the
entries that hold its references, in order, each one later than the entry itself. -/
def Linked (start : Nat) (order : List (Cell × List Nat)) : Prop :=
  ∀ i d is, order[i]? = some (d, is) →
    List.Forall₂ (fun j r => start + i < j ∧ ∃ js, order[j - start]? = some (r, js)) is d.refs

/-- The indices `is` name the entries of `order`, counted from `start`, that hold `refs`. -/
def Heads (start : Nat) (order : List (Cell × List Nat)) (is : List Nat) (refs : List Cell) :
    Prop :=
  List.Forall₂ (fun j r => start ≤ j ∧ ∃ js, order[j - start]? = some (r, js)) is refs

/-! ## Linked lists compose -/

theorem Linked.append {s : Nat} {xs ys : List (Cell × List Nat)} (hx : Linked s xs)
    (hy : Linked (s + xs.length) ys) : Linked s (xs ++ ys) := by
  intro i d is hi
  rcases Nat.lt_or_ge i xs.length with hlt | hge
  · rw [List.getElem?_append_left hlt] at hi
    refine (hx i d is hi).imp fun j r ⟨hij, js, hj⟩ => ⟨hij, js, ?_⟩
    have : j - s < xs.length := (List.getElem?_eq_some_iff.mp hj).1
    rwa [List.getElem?_append_left this]
  · rw [List.getElem?_append_right hge] at hi
    refine (hy (i - xs.length) d is hi).imp fun j r ⟨hij, js, hj⟩ => ⟨by omega, js, ?_⟩
    rw [List.getElem?_append_right (by omega)]
    rwa [show j - s - xs.length = j - (s + xs.length) by omega]

theorem Heads.append_left {s : Nat} {xs ys : List (Cell × List Nat)} {is : List Nat}
    {refs : List Cell} (h : Heads (s + xs.length) ys is refs) : Heads s (xs ++ ys) is refs :=
  h.imp fun j r ⟨hj, js, he⟩ => ⟨by omega, js, by
    rw [List.getElem?_append_right (by omega), show j - s - xs.length = j - (s + xs.length) by omega]
    exact he⟩

/-- A cell whose references head the linked entries after it extends them. -/
theorem Linked.cons {s : Nat} {c : Cell} {is : List Nat} {es : List (Cell × List Nat)}
    (hes : Linked (s + 1) es) (hheads : Heads (s + 1) es is c.refs) :
    Linked s ((c, is) :: es) := by
  intro i d js hi
  cases i with
  | zero =>
    simp only [List.getElem?_cons_zero, Option.some.injEq, Prod.mk.injEq] at hi
    obtain ⟨rfl, rfl⟩ := hi
    refine hheads.imp fun j r ⟨hj, ks, he⟩ => ⟨by omega, ks, ?_⟩
    rw [show j - s = (j - (s + 1)) + 1 by omega, List.getElem?_cons_succ]
    exact he
  | succ i =>
    rw [List.getElem?_cons_succ] at hi
    refine (hes i d js hi).imp fun j r ⟨hj, ks, he⟩ => ⟨by omega, ks, ?_⟩
    rw [show j - s = (j - (s + 1)) + 1 by omega, List.getElem?_cons_succ]
    exact he

/-! ## The writer's order -/

theorem preorder_eq (s : Nat) (c : Cell) :
    preorder s c =
      (c, (preorder.children (s + 1) c.refs).2) :: (preorder.children (s + 1) c.refs).1 := by
  rcases c with ⟨bits, refs⟩
  simp only [preorder]

theorem children_cons (s : Nat) (r : Cell) (rs : List Cell) :
    preorder.children s (r :: rs) =
      (preorder s r ++ (preorder.children (s + (preorder s r).length) rs).1,
        s :: (preorder.children (s + (preorder s r).length) rs).2) := by
  simp only [preorder.children]

theorem preorder_length_pos (s : Nat) (c : Cell) : 0 < (preorder s c).length := by
  rw [preorder_eq]
  simp

/-- The pre-order flattening of a tree is linked. -/
theorem preorder_linked (s : Nat) (c : Cell) : Linked s (preorder s c) := by
  induction s, c using preorder.induct
    (motive_1 := fun s refs => Linked s (preorder.children s refs).1 ∧
      Heads s (preorder.children s refs).1 (preorder.children s refs).2 refs) with
  | case1 s bits refs es is hch ih =>
    rw [preorder_eq]
    simp only [hch] at ih ⊢
    exact Linked.cons ih.1 ih.2
  | case2 s => exact ⟨fun i d is h => by simp [preorder.children] at h, List.Forall₂.nil⟩
  | case3 s r rs e es is hch ihr ihrs =>
    rw [show e = preorder s r from rfl] at hch ihrs
    rw [children_cons]
    simp only [hch] at ihrs ⊢
    -- the first reference heads its own entries, which come first
    refine ⟨ihr.append ihrs.1, List.Forall₂.cons
      ⟨Nat.le_refl s, (preorder.children (s + 1) r.refs).2, ?_⟩ (Heads.append_left ihrs.2)⟩
    rw [Nat.sub_self, List.getElem?_append_left (preorder_length_pos s r), preorder_eq]
    rfl

/-- Every cell the flattening lists is a subtree of the tree, so it fits when the tree does. -/
theorem preorder_fits (s : Nat) (c : Cell) : c.Fits → ∀ e ∈ preorder s c, e.1.Fits := by
  induction s, c using preorder.induct
    (motive_1 := fun s refs => (∀ r ∈ refs, r.Fits) → ∀ e ∈ (preorder.children s refs).1, e.1.Fits)
    with
  | case1 s bits refs es is hch ih =>
    intro hc e he
    rw [preorder_eq] at he
    simp only [hch, List.mem_cons] at he ih
    cases hc with
    | mk _ _ hrefs =>
      rcases he with rfl | he
      · exact .mk ‹_› ‹_› hrefs
      · exact ih hrefs e he
  | case2 s _ e he => simp [preorder.children] at he
  | case3 s r rs e es is hch ihr ihrs hrefs x hx =>
    rw [show e = preorder s r from rfl] at hch ihrs
    rw [children_cons, List.mem_append] at hx
    simp only [hch] at hx ihrs
    rcases hx with hx | hx
    · exact ihr (hrefs r (by simp)) x hx
    · exact ihrs (fun r hr => hrefs r (by simp [hr])) x hx

/-! ## The reader's assembly -/

/-- A cell as stored, read from an entry of the flat list. -/
def RawCell.ofEntry (e : Cell × List Nat) : RawCell := ⟨e.1.bits, e.2⟩

theorem Array.getD_push_of_lt {α : Type} {a : Array α} {x d : α} {i : Nat} (h : i < a.size) :
    (a.push x).getD i d = a.getD i d := by
  simp [Array.getD, h, Array.getElem_push, Nat.lt_succ_of_lt h]

theorem Array.getD_push_size {α : Type} {a : Array α} {x d : α} :
    (a.push x).getD a.size d = x := by
  simp [Array.getD]

/-- The cells of `order` from index `m` on stand in `built`, the last one first. -/
def Built (order : List (Cell × List Nat)) (m : Nat) (built : Array Cell) : Prop :=
  built.size = order.length - m ∧
    ∀ r d is, order[r]? = some (d, is) → m ≤ r → built.getD (order.length - 1 - r) default = d

/-- Assembling the stored cells of a linked list from the back rebuilds each entry's cell. -/
theorem assemble_built {order : List (Cell × List Nat)} (hlink : Linked 0 order) :
    ∀ m (built : Array Cell), m ≤ order.length → Built order m built →
      Built order 0 (assemble order.length
        ((List.range m).zip ((order.map RawCell.ofEntry).take m)).reverse built) := by
  intro m
  induction m with
  | zero => intro built _ h; simpa [assemble] using h
  | succ m ih =>
    intro built hm ⟨hsize, hcells⟩
    obtain ⟨⟨d, is⟩, hentry⟩ : ∃ e, order[m]? = some e :=
      Option.isSome_iff_exists.mp (by simp [List.getElem?_eq_getElem (by omega : m < order.length)])
    have hzip : (List.range (m + 1)).zip ((order.map RawCell.ofEntry).take (m + 1)) =
        (List.range m).zip ((order.map RawCell.ofEntry).take m) ++ [(m, ⟨d.bits, is⟩)] := by
      rw [List.range_succ, List.take_add_one, List.getElem?_map, hentry,
        List.zip_append (by simp; omega)]
      rfl
    rw [hzip, List.reverse_append]
    simp only [List.reverse_singleton, List.singleton_append, assemble]
    apply ih _ (by omega)
    -- entry `m`'s references name later entries, which are already rebuilt
    have hrefs : is.map (fun r => built.getD (order.length - 1 - r) default) = d.refs := by
      rw [← List.forall₂_eq_eq_eq, List.forall₂_map_left_iff]
      exact (hlink m d is hentry).imp fun j r ⟨hj, js, he⟩ =>
        hcells j r js (by simpa using he) (by omega)
    refine ⟨by simp [hsize]; omega, fun r d' is' hr hmr => ?_⟩
    rcases Nat.eq_or_lt_of_le hmr with rfl | hlt
    · rcases d with ⟨bits, refs⟩
      rw [hentry] at hr
      simp only [Option.some.injEq, Prod.mk.injEq] at hr
      obtain ⟨rfl, rfl⟩ := hr
      rw [show order.length - 1 - m = built.size by omega, Array.getD_push_size]
      simp only [hrefs]
    · have := (List.getElem?_eq_some_iff.mp hr).1
      rw [Array.getD_push_of_lt (by omega)]
      exact hcells r d' is' hr hlt

/-- The first cell assembled from the stored pre-order of a tree is the tree. -/
theorem assemble_preorder (c : Cell) :
    (assemble (preorder 0 c).length
      ((List.range (preorder 0 c).length).zip ((preorder 0 c).map RawCell.ofEntry)).reverse
      #[]).getD ((preorder 0 c).length - 1) default = c := by
  have hbuilt := assemble_built (preorder_linked 0 c) (preorder 0 c).length #[] (Nat.le_refl _)
    ⟨by simp, fun r _ _ hr hle => absurd (List.getElem?_eq_some_iff.mp hr).1 (by omega)⟩
  rw [List.take_of_length_le (by simp)] at hbuilt
  have hhead : (preorder 0 c)[0]? = some (c, (preorder.children 1 c.refs).2) := by
    rw [preorder_eq]
    rfl
  simpa using hbuilt.2 0 c _ hhead (Nat.le_refl 0)

end PoolTreasury
