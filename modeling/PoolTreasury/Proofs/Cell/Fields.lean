import PoolTreasury.Proofs.Cell.Read

/-! # Typed fields of a cell

The builder's typed stores and the slice's typed loads come in pairs: a bit, an unsigned
integer of a given width taken from a 64-bit or a 128-bit value, whole bytes, an amount of
coins, and an optional internal address. `CellField` is one such field with its value.

A store succeeds exactly when the cell has room for the bits it writes, the value fits its
width, and the width is one the store's integer type has (`CellField.store_fails_iff`). The
last condition is the store's own: a 65-bit store from a 64-bit value fails although the value
fits (`storeUint_wider_than_u64`). A sequence of stores that succeeds builds a cell that the
bag-of-cells codec gives back unchanged, and the matching loads read the fields back in order
with no bit left over (`typed_fields_roundTrip`).
-/

namespace PoolTreasury

/-- A run whose first step succeeded went on from the state that step left. -/
theorem run_bind_eq_ok {σ ε α β : Type} {x : StateT σ (Except ε) α}
    {f : α → StateT σ (Except ε) β} {s s'' : σ} {v : β} (h : (x >>= f).run s = .ok (v, s'')) :
    ∃ a s', x.run s = .ok (a, s') ∧ (f a).run s' = .ok (v, s'') := by
  rw [StateT.run_bind] at h
  cases hx : x.run s with
  | error e =>
    rw [hx] at h
    cases h
  | ok p => exact ⟨p.1, p.2, rfl, by rw [hx] at h; exact h⟩

/-- A cell that was built came from stores that all succeeded. -/
theorem buildCell_eq_ok {stores : Build} {c : Cell} (h : buildCell stores = .ok c) :
    ∃ b, stores.run {} = .ok ((), b) ∧ c = b.build := by
  unfold buildCell at h
  cases hrun : stores.run {} with
  | error e =>
    rw [hrun] at h
    cases h
  | ok p =>
    rw [hrun] at h
    cases h
    exact ⟨p.2, rfl, rfl⟩

namespace Builder

/-! ## What a successful store had room for -/

theorem storeBit_ok {bit : Bool} {b b' : Builder} {u : Unit}
    (h : (storeBit bit : Build).run b = .ok (u, b')) : b.bits.length < maxCellBits := by
  by_contra hfull
  have hfull' : b.bits.length ≥ maxCellBits := by omega
  simp only [storeBit, StateT.run_bind, StateT.run_get, pure_bind, hfull', if_true] at h
  cases h

theorem storeU128_ok {value width : Nat} {b b' : Builder} {u : Unit}
    (h : (storeU128 value width : Build).run b = .ok (u, b')) :
    width ≤ 128 ∧ (width < 128 → value < 2 ^ width) ∧ width ≤ b.bitsLeft := by
  simp only [storeU128] at h
  split at h
  · cases h
  · rename_i hfit
    simp only [StateT.run_bind, StateT.run_get, pure_bind] at h
    split at h
    · cases h
    · refine ⟨by omega, fun hw => ?_, by omega⟩
      have hzero : value / 2 ^ width = 0 := by omega
      exact (Nat.div_eq_zero_iff_lt (Nat.two_pow_pos _)).mp hzero

theorem storeUint_ok {value width : Nat} {b b' : Builder} {u : Unit}
    (h : (storeUint value width : Build).run b = .ok (u, b')) :
    width ≤ 64 ∧ value < 2 ^ width ∧ width ≤ b.bitsLeft := by
  simp only [storeUint] at h
  split at h
  · cases h
  · obtain ⟨-, hv, hroom⟩ := storeU128_ok h
    exact ⟨by omega, hv (by omega), hroom⟩

theorem storeBytes_ok {bytes : List UInt8} {b b' : Builder} {u : Unit}
    (h : (storeBytes bytes : Build).run b = .ok (u, b')) : bytes.length * 8 ≤ b.bitsLeft := by
  by_contra hfull
  have hfull' : bytes.length * 8 > b.bitsLeft := by omega
  simp only [storeBytes, StateT.run_bind, StateT.run_get, pure_bind, hfull', if_true] at h
  cases h

/-- An amount that takes at most fifteen bytes is below `2 ^ 120`. -/
theorem lt_of_coinsLength_le {amount : Nat} (h : coinsLength amount ≤ 15) : amount < 2 ^ 120 :=
  Nat.lt_of_lt_of_le (lt_two_pow_coinsLength amount) (Nat.pow_le_pow_right (by decide) (by omega))

theorem storeCoins_ok {amount : Nat} {b b' : Builder} {u : Unit}
    (h : (storeCoins amount : Build).run b = .ok (u, b')) :
    amount < 2 ^ 120 ∧ 4 + coinsLength amount * 8 ≤ b.bitsLeft := by
  simp only [storeCoins] at h
  rw [show (bitLength amount + 7) / 8 = coinsLength amount from rfl] at h
  split at h
  · cases h
  · rename_i hlen
    -- the length nibble, then the amount in that many bytes
    obtain ⟨_, b₁, h₁, h₂⟩ := run_bind_eq_ok h
    obtain ⟨-, hv, hroom⟩ := storeUint_ok h₁
    rw [storeUint_run (by decide) hv hroom] at h₁
    cases h₁
    obtain ⟨-, -, hroom'⟩ := storeU128_ok h₂
    simp only [bitsLeft_append, bitsOfNat_length] at hroom'
    exact ⟨lt_of_coinsLength_le (by omega), by omega⟩

theorem storeAddress_ok {a : MsgAddress} {b b' : Builder} {u : Unit}
    (h : (storeAddress (some a) : Build).run b = .ok (u, b')) : 11 + 8 * a.hash.length ≤ b.bitsLeft := by
  simp only [storeAddress] at h
  -- the tag, the anycast bit, the workchain and the hash, each from where the last one ended
  obtain ⟨_, b₁, h₁, h⟩ := run_bind_eq_ok h
  obtain ⟨-, hv₁, hroom₁⟩ := storeUint_ok h₁
  rw [storeUint_run (by decide) hv₁ hroom₁] at h₁
  cases h₁
  obtain ⟨_, b₂, h₂, h⟩ := run_bind_eq_ok h
  have hroom₂ := storeBit_ok h₂
  rw [storeBit_run hroom₂] at h₂
  cases h₂
  obtain ⟨_, b₃, h₃, h⟩ := run_bind_eq_ok h
  obtain ⟨-, hv₃, hroom₃⟩ := storeUint_ok h₃
  rw [storeUint_run (by decide) hv₃ hroom₃] at h₃
  cases h₃
  have hroom₄ := storeBytes_ok h
  simp only [bitsLeft, List.length_append, bitsOfNat_length, List.length_singleton]
    at hroom₁ hroom₂ hroom₃ hroom₄ ⊢
  omega

end Builder

/-! ## Fields -/

/-- A value written by one of the builder's typed stores. -/
inductive CellField where
  | bit (b : Bool)
  /-- `width` bits of a 64-bit value. -/
  | uint (value width : Nat)
  /-- `width` bits of a 128-bit value. -/
  | u128 (value width : Nat)
  | bytes (data : List UInt8)
  | coins (amount : Nat)
  | address (a : Option MsgAddress)
deriving DecidableEq, Repr

namespace CellField

/-- The store that writes the field. -/
def store : CellField → Build
  | bit b => Builder.storeBit b
  | uint v w => Builder.storeUint v w
  | u128 v w => Builder.storeU128 v w
  | bytes d => Builder.storeBytes d
  | coins a => Builder.storeCoins a
  | address a => Builder.storeAddress a

/-- The load that reads a field of the same kind and width. -/
def load : CellField → Read CellField
  | bit _ => do pure (bit (← Slice.loadBit))
  | uint _ w => do pure (uint (← Slice.loadUint w) w)
  | u128 _ w => do pure (u128 (← Slice.loadU128 w) w)
  | bytes d => do pure (bytes (← Slice.loadBytes d.length))
  | coins _ => do pure (coins (← Slice.loadCoins))
  | address _ => do pure (address (← Slice.loadAddress))

/-- The bits the store writes. -/
def written : CellField → List Bool
  | bit b => [b]
  | uint v w | u128 v w => bitsOfNat w v
  | bytes d => bitsOfBytes d
  | coins a => coinsBits a
  | address none => bitsOfNat 2 0
  | address (some a) => addressBits a

/-- The value lies within the width the field gives it; an amount within fifteen bytes. -/
def ValueFits : CellField → Prop
  | uint v w | u128 v w => v < 2 ^ w
  | coins a => a < 2 ^ 120
  | _ => True

/-- The width is one the store's integer type has: 64 bits of a 64-bit value, 128 of a 128-bit
one. -/
def WidthTaken : CellField → Prop
  | uint _ w => w ≤ 64
  | u128 _ w => w ≤ 128
  | _ => True

/-- The value is one its type holds: a 128-bit value below `2 ^ 128`, an address hash of 32
bytes. -/
def Typed : CellField → Prop
  | u128 v _ => v < 2 ^ 128
  | address (some a) => a.hash.length = 32
  | _ => True

instance (f : CellField) : Decidable f.ValueFits := by
  rcases f with b | ⟨v, w⟩ | ⟨v, w⟩ | d | a | a <;> unfold ValueFits <;> infer_instance

instance (f : CellField) : Decidable f.WidthTaken := by
  rcases f with b | ⟨v, w⟩ | ⟨v, w⟩ | d | a | a <;> unfold WidthTaken <;> infer_instance

instance (f : CellField) : Decidable f.Typed := by
  rcases f with b | ⟨v, w⟩ | ⟨v, w⟩ | d | a | _ | a <;> unfold Typed <;> infer_instance

/-! ## Each store -/

/-- A store with room, a value that fits and a width its type has appends what it writes. -/
theorem store_run {f : CellField} {b : Builder} (htyped : f.Typed) (hfits : f.ValueFits)
    (hwidth : f.WidthTaken) (hroom : f.written.length ≤ b.bitsLeft) :
    f.store.run b = .ok ((), { b with bits := b.bits ++ f.written }) := by
  cases f with
  | bit bit =>
    simp only [written, List.length_singleton, Builder.bitsLeft] at hroom
    exact Builder.storeBit_run (by omega) bit
  | uint v w => exact Builder.storeUint_run hwidth hfits (by simpa [written] using hroom)
  | u128 v w => exact Builder.storeU128_run hwidth hfits (by simpa [written] using hroom)
  | bytes d => exact Builder.storeBytes_run (by simpa [written, Nat.mul_comm] using hroom)
  | coins a => exact Builder.storeCoins_run hfits (by simpa [written] using hroom)
  | address a =>
    cases a with
    | none =>
      show (Builder.storeUint 0 2 : Build).run b = _
      exact Builder.storeUint_run (by decide) (by decide) (by simpa [written] using hroom)
    | some a =>
      have hhash : a.hash.length = 32 := htyped
      simp only [written, addressBits_length, hhash] at hroom
      exact Builder.storeAddress_run hhash hroom

/-- A store that succeeded had room for what it wrote, and its value fit a width its type has. -/
theorem store_ok {f : CellField} (htyped : f.Typed) {b b' : Builder} {u : Unit}
    (h : f.store.run b = .ok (u, b')) :
    f.ValueFits ∧ f.WidthTaken ∧ f.written.length ≤ b.bitsLeft := by
  cases f with
  | bit bit =>
    have hroom := Builder.storeBit_ok h
    refine ⟨trivial, trivial, ?_⟩
    simp only [written, List.length_singleton, Builder.bitsLeft]
    omega
  | uint v w =>
    obtain ⟨hw, hv, hroom⟩ := Builder.storeUint_ok h
    exact ⟨hv, hw, by simpa [written] using hroom⟩
  | u128 v w =>
    obtain ⟨hw, hv, hroom⟩ := Builder.storeU128_ok h
    refine ⟨?_, hw, by simpa [written] using hroom⟩
    -- at the full width the value is bounded by its type alone
    rcases Nat.lt_or_eq_of_le hw with hlt | rfl
    · exact hv hlt
    · exact htyped
  | bytes d => exact ⟨trivial, trivial, by simpa [written, Nat.mul_comm] using Builder.storeBytes_ok h⟩
  | coins a =>
    obtain ⟨ha, hroom⟩ := Builder.storeCoins_ok h
    exact ⟨ha, trivial, by simpa [written] using hroom⟩
  | address a =>
    cases a with
    | none =>
      obtain ⟨-, -, hroom⟩ := Builder.storeUint_ok (show (Builder.storeUint 0 2 : Build).run b = _ from h)
      exact ⟨trivial, trivial, by simpa [written] using hroom⟩
    | some a => exact ⟨trivial, trivial, by simpa [written] using Builder.storeAddress_ok h⟩

/-- A store fails exactly when the cell has no room for what it writes, the value does not fit
its width, or the width is more than the store's integer type has. -/
theorem store_fails_iff (f : CellField) (htyped : f.Typed) (b : Builder) :
    (∃ e, f.store.run b = .error e) ↔
      b.bitsLeft < f.written.length ∨ ¬ f.ValueFits ∨ ¬ f.WidthTaken := by
  constructor
  · rintro ⟨e, he⟩
    by_cases hroom : f.written.length ≤ b.bitsLeft
    · by_cases hfits : f.ValueFits
      · by_cases hwidth : f.WidthTaken
        · rw [store_run htyped hfits hwidth hroom] at he
          cases he
        · exact .inr (.inr hwidth)
      · exact .inr (.inl hfits)
    · exact .inl (by omega)
  · intro hfail
    cases hrun : f.store.run b with
    | error e => exact ⟨e, rfl⟩
    | ok p =>
      obtain ⟨hfits, hwidth, hroom⟩ := store_ok htyped hrun
      rcases hfail with hfull | hbad | hwide
      · omega
      · exact absurd hfits hbad
      · exact absurd hwidth hwide

/-- Each load reads back what its store wrote. -/
theorem reads_load {f : CellField} (htyped : f.Typed) (hfits : f.ValueFits)
    (hwidth : f.WidthTaken) (more : List Bool) (refs : List Cell) :
    Slice.ReadsAs f.load ⟨f.written ++ more, refs⟩ f ⟨more, refs⟩ := by
  cases f with
  | bit bit => exact Slice.ReadsAs.bind Slice.reads_loadBit (Slice.Reads.pure ⟨rfl, rfl⟩)
  | uint v w =>
    exact Slice.ReadsAs.bind (Slice.reads_loadUint hwidth hfits) (Slice.Reads.pure ⟨rfl, rfl⟩)
  | u128 v w =>
    exact Slice.ReadsAs.bind (Slice.reads_loadU128 hwidth hfits) (Slice.Reads.pure ⟨rfl, rfl⟩)
  | bytes d => exact Slice.ReadsAs.bind Slice.reads_loadBytes (Slice.Reads.pure ⟨rfl, rfl⟩)
  | coins a => exact Slice.ReadsAs.bind (Slice.reads_loadCoins hfits) (Slice.Reads.pure ⟨rfl, rfl⟩)
  | address a =>
    cases a with
    | none =>
      refine Slice.ReadsAs.bind ?_ (Slice.Reads.pure ⟨rfl, rfl⟩)
      unfold Slice.loadAddress
      exact Slice.ReadsAs.bind (Slice.reads_loadUint (by decide) (by decide))
        (Slice.Reads.pure ⟨rfl, rfl⟩)
    | some a =>
      exact Slice.ReadsAs.bind (Slice.reads_loadAddress htyped) (Slice.Reads.pure ⟨rfl, rfl⟩)

/-! ## A sequence of fields -/

/-- Stores that all succeeded appended, in order, what each writes, and each had what it
needed. -/
theorem forM_store_ok {fs : List CellField} (htyped : ∀ f ∈ fs, f.Typed) {b b' : Builder}
    {u : Unit} (h : (forM fs store).run b = .ok (u, b')) :
    (∀ f ∈ fs, f.ValueFits ∧ f.WidthTaken) ∧ (fs.flatMap written).length ≤ b.bitsLeft ∧
      b' = { b with bits := b.bits ++ fs.flatMap written } := by
  induction fs generalizing b with
  | nil =>
    cases h
    simp
  | cons f rest ih =>
    rw [List.forM_cons] at h
    obtain ⟨_, b₁, h₁, h₂⟩ := run_bind_eq_ok h
    have hf := htyped f List.mem_cons_self
    obtain ⟨hfits, hwidth, hroom⟩ := store_ok hf h₁
    rw [store_run hf hfits hwidth hroom] at h₁
    cases h₁
    obtain ⟨hrest, hroom', rfl⟩ := ih (fun g hg => htyped g (List.mem_cons_of_mem _ hg)) h₂
    refine ⟨?_, ?_, ?_⟩
    · intro g hg
      rcases List.mem_cons.mp hg with rfl | hg
      · exact ⟨hfits, hwidth⟩
      · exact hrest g hg
    · simp only [Builder.bitsLeft_append] at hroom'
      simp only [List.flatMap_cons, List.length_append]
      omega
    · simp [List.flatMap_cons]

/-- The loads read back, in order, the fields whose bits lead the cell. -/
theorem reads_mapM_load {fs : List CellField}
    (h : ∀ f ∈ fs, f.Typed ∧ f.ValueFits ∧ f.WidthTaken) (more : List Bool) (refs : List Cell) :
    Slice.ReadsAs (fs.mapM load) ⟨fs.flatMap written ++ more, refs⟩ fs ⟨more, refs⟩ := by
  induction fs with
  | nil => exact Slice.Reads.pure ⟨rfl, rfl⟩
  | cons f rest ih =>
    obtain ⟨htyped, hfits, hwidth⟩ := h f List.mem_cons_self
    rw [List.mapM_cons, List.flatMap_cons, List.append_assoc]
    exact Slice.ReadsAs.bind (reads_load htyped hfits hwidth _ refs)
      (Slice.ReadsAs.bind (ih fun g hg => h g (List.mem_cons_of_mem _ hg))
        (Slice.Reads.pure ⟨rfl, rfl⟩))

end CellField

/-- Typed stores and loads are inverse. Each store, on a builder within the cell limit, fails
exactly when it would take the cell past `maxCellBits` bits, its value does not fit its width, or
the width is more than its integer type has. A sequence of stores that succeeds builds a cell
that the bag-of-cells codec gives back unchanged, and from which the matching loads read the
fields back in order, leaving no bit unread. -/
theorem typed_fields_roundTrip :
    (∀ (f : CellField) (b : Builder), f.Typed → b.bits.length ≤ maxCellBits →
      ((∃ e, f.store.run b = .error e) ↔
        maxCellBits < b.bits.length + f.written.length ∨ ¬ f.ValueFits ∨ ¬ f.WidthTaken)) ∧
    ∀ (fs : List CellField) (c : Cell), (∀ f ∈ fs, f.Typed) →
      buildCell (forM fs CellField.store) = .ok c →
      Cell.ofBoc c.toBoc = .ok c ∧
        ∃ s, (fs.mapM CellField.load).run c.slice = .ok (fs, s) ∧ s.remainingBits = 0 := by
  refine ⟨fun f b htyped hb => ?_, fun fs c htyped hbuild => ?_⟩
  · have hpast : b.bitsLeft < f.written.length ↔
        maxCellBits < b.bits.length + f.written.length := by
      unfold Builder.bitsLeft
      omega
    rw [CellField.store_fails_iff f htyped b, hpast]
  · -- the stores ran from the empty builder and wrote the fields' bits, and nothing else
    obtain ⟨b', hrun, rfl⟩ := buildCell_eq_ok hbuild
    obtain ⟨hfits, hroom, rfl⟩ := CellField.forM_store_ok htyped hrun
    have hc : Builder.build { bits := ([] : List Bool) ++ fs.flatMap CellField.written } =
        ⟨fs.flatMap CellField.written, []⟩ := by
      simp [Builder.build]
    rw [hc]
    refine ⟨Cell.ofBoc_toBoc ?_ ?_, ?_⟩
    · exact .mk (by simpa [Builder.bitsLeft] using hroom) (by simp [maxCellRefs]) (by simp)
    · rw [preorder_length_leaf rfl]
      decide
    · have hreads := CellField.reads_mapM_load (fun f hf => ⟨htyped f hf, hfits f hf⟩) [] []
      rw [List.append_nil] at hreads
      obtain ⟨a, s, hs, rfl, hleft⟩ := Slice.Reads.run_slice hreads
      exact ⟨s, hs, by simp [Slice.remainingBits_eq, hleft]⟩

/-- A bit, a three-bit integer, a byte and the empty address, read back from the cell they
build. -/
theorem small_fields_read_back :
    let fs := [CellField.bit true, .uint 5 3, .bytes [0xab], .address none]
    ∃ c, (∀ f ∈ fs, f.Typed) ∧ buildCell (forM fs CellField.store) = .ok c ∧
      Cell.ofBoc c.toBoc = .ok c ∧
        ∃ s, (fs.mapM CellField.load).run c.slice = .ok (fs, s) ∧ s.remainingBits = 0 :=
  ⟨_, by decide, rfl, typed_fields_roundTrip.2 _ _ (by decide) rfl⟩

/-- A 65-bit store from a 64-bit value fails, though the value fits its width and an empty cell
has room for it. -/
theorem storeUint_wider_than_u64 :
    (CellField.uint 1 65).ValueFits ∧ (CellField.uint 1 65).written.length ≤ maxCellBits ∧
      (CellField.uint 1 65).store.run {} = .error (.overflow "65 bits from u64") :=
  ⟨by decide, by decide, rfl⟩

end PoolTreasury
