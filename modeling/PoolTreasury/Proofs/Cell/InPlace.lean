import PoolTreasury.Proofs.Cell.Fields

/-! # What a failing store leaves in the builder

The builder is changed in place: a store that fails returns its error, and the builder keeps
whatever the store wrote before it failed. `InPlace` runs the builder's stores that way. The
program itself runs them in `Build`, which drops the builder of a failed store; the two agree
on everything else (`BuilderCall.store_rollsBack`).

A store made of one write checks all it needs before it writes, so when it fails the builder is
as it was (`BuilderCall.Single`). The three stores made of several writes do not check the room
for the whole value first: an amount writes its length before its bytes, an address its tag,
anycast bit and workchain before its hash, and a snake its bytes here before its reference.
When a later write fails, the earlier ones stay. What holds for every store is that a failure
adds no reference and leaves the builder's bits followed by a prefix of what the store writes
(`failed_store_leaves_prefix`).
-/

namespace PoolTreasury

/-- The builder's stores as they change a builder in place: a failing store leaves the builder
as far as it got. -/
abbrev InPlace := EStateM CellError Builder

namespace InPlace

/-- What the program keeps of a run in place: a failure keeps its error and drops the builder. -/
def dropFailed {α : Type} :
    EStateM.Result CellError Builder α → Except CellError (α × Builder)
  | .ok a b => .ok (a, b)
  | .error e _ => .error e

/-! ## The program's runs are the runs in place, failures rolled back -/

/-- `x` runs in the program as `y` runs in place, with the builder of a failure dropped. -/
def RollsBack {α : Type} (x : StateT Builder (Except CellError) α) (y : InPlace α) : Prop :=
  ∀ b, x.run b = dropFailed (y.run b)

section RollsBack

variable {α β : Type}

theorem RollsBack.pure (a : α) : RollsBack (Pure.pure a) (Pure.pure a) := fun _ => rfl

theorem RollsBack.get : RollsBack (MonadState.get : StateT Builder (Except CellError) Builder)
    (MonadState.get : InPlace Builder) := fun _ => rfl

theorem RollsBack.set (b' : Builder) :
    RollsBack (MonadStateOf.set b' : StateT Builder (Except CellError) PUnit)
      (MonadStateOf.set b' : InPlace PUnit) := fun _ => rfl

theorem RollsBack.throw (e : CellError) :
    RollsBack (MonadExcept.throw e : StateT Builder (Except CellError) α)
      (MonadExcept.throw e : InPlace α) := fun _ => rfl

theorem RollsBack.bind {x : StateT Builder (Except CellError) α} {y : InPlace α}
    {f : α → StateT Builder (Except CellError) β} {g : α → InPlace β} (hx : RollsBack x y)
    (hf : ∀ a, RollsBack (f a) (g a)) : RollsBack (x >>= f) (y >>= g) := by
  intro b
  rw [StateT.run_bind, EStateM.run_bind, hx b]
  cases y.run b with
  | ok a b' => exact hf a b'
  | error e b' => rfl

theorem RollsBack.ite {c : Prop} [Decidable c] {x x' : StateT Builder (Except CellError) α}
    {y y' : InPlace α} (h : RollsBack x y) (h' : RollsBack x' y') :
    RollsBack (if c then x else x') (if c then y else y') := by
  split
  · exact h
  · exact h'

/-- A check that throws when its condition holds, before the rest `k` of a store. -/
theorem RollsBack.guard {c : Prop} [Decidable c] {e : CellError}
    {k : Unit → StateT Builder (Except CellError) Unit} {k' : Unit → InPlace Unit}
    (hk : RollsBack (k ()) (k' ())) :
    RollsBack (if c then MonadExcept.throw e >>= k else k ())
      (if c then MonadExcept.throw e >>= k' else k' ()) :=
  RollsBack.ite (RollsBack.bind (RollsBack.throw e) fun _ => hk) hk

theorem RollsBack.ok_iff {x : StateT Builder (Except CellError) α} {y : InPlace α}
    (h : RollsBack x y) {b b' : Builder} {a : α} :
    x.run b = .ok (a, b') ↔ y.run b = .ok a b' := by
  rw [h b]
  cases y.run b <;> simp [dropFailed]

/-- A store that fails in the program fails in place with the same error. -/
theorem RollsBack.error {x : StateT Builder (Except CellError) α} {y : InPlace α}
    (h : RollsBack x y) {b : Builder} {e : CellError} (hx : x.run b = .error e) :
    ∃ b', y.run b = .error e b' := by
  rw [h b] at hx
  cases hy : y.run b <;> simp_all [dropFailed]

end RollsBack

/-! ## Stores that write once or write in steps -/

/-- Run from `b`, `x` either appends the bits `w` and the references `rs`, or fails and leaves
`b` as it was. -/
def Whole (x : InPlace Unit) (b : Builder) (w : List Bool) (rs : List Cell) : Prop :=
  x.run b = .ok () ⟨b.bits ++ w, b.refs ++ rs⟩ ∨ ∃ e, x.run b = .error e b

/-- Run from `b`, `x` either appends the bits `w` and the references `rs`, or fails having
appended a prefix of `w` and no reference. -/
def WritesPrefix (x : InPlace Unit) (b : Builder) (w : List Bool) (rs : List Cell) : Prop :=
  x.run b = .ok () ⟨b.bits ++ w, b.refs ++ rs⟩ ∨
    ∃ e pre, pre <+: w ∧ x.run b = .error e ⟨b.bits ++ pre, b.refs⟩

variable {x y : InPlace Unit} {b : Builder} {w w' : List Bool} {rs : List Cell}

theorem Whole.get_bind {f : Builder → InPlace Unit} (h : Whole (f b) b w rs) :
    Whole (MonadState.get >>= f) b w rs := h

theorem WritesPrefix.get_bind {f : Builder → InPlace Unit} (h : WritesPrefix (f b) b w rs) :
    WritesPrefix (MonadState.get >>= f) b w rs := h

theorem Whole.set {b' : Builder} (h : b' = ⟨b.bits ++ w, b.refs ++ rs⟩) :
    Whole (MonadStateOf.set b') b w rs := .inl (by rw [h]; rfl)

theorem Whole.pure : Whole (Pure.pure ()) b [] [] := .inl (by simp)

/-- What a failure of a whole store leaves: the builder it started from. -/
theorem Whole.eq_of_error (h : Whole x b w rs) {e : CellError} {b' : Builder}
    (herr : x.run b = .error e b') : b' = b := by
  rcases h with hok | ⟨e', herr'⟩
  · rw [hok] at herr
    cases herr
  · rw [herr'] at herr
    cases herr
    rfl

/-- A store of one write that the program refuses fails in place with the builder as it was. -/
theorem Whole.error_of_rollsBack {x' : StateT Builder (Except CellError) Unit} (hw : Whole x b w rs)
    (hr : RollsBack x' x) {e : CellError} (hx : x'.run b = .error e) : x.run b = .error e b := by
  obtain ⟨b', hb'⟩ := hr.error hx
  rw [hb', hw.eq_of_error hb']

theorem Whole.writesPrefix (h : Whole x b w rs) : WritesPrefix x b w rs := by
  rcases h with hok | ⟨e, herr⟩
  · exact .inl hok
  · exact .inr ⟨e, [], List.nil_prefix, by rw [herr, List.append_nil]⟩

/-- A check that throws when its condition holds, then the rest `k` of the store, as `do` writes
it with `k` as the join point: the check writes nothing. -/
theorem Whole.guard {c : Prop} [Decidable c] {e : CellError} {k : Unit → InPlace Unit}
    (h : ¬ c → Whole (k ()) b w rs) :
    Whole (if c then MonadExcept.throw e >>= k else k ()) b w rs := by
  split
  · exact .inr ⟨e, rfl⟩
  · exact h ‹_›

theorem WritesPrefix.guard {c : Prop} [Decidable c] {e : CellError} {k : Unit → InPlace Unit}
    (h : ¬ c → WritesPrefix (k ()) b w rs) :
    WritesPrefix (if c then MonadExcept.throw e >>= k else k ()) b w rs := by
  split
  · exact .inr ⟨e, [], List.nil_prefix, by rw [List.append_nil]; rfl⟩
  · exact h ‹_›

/-- A store that adds no reference, then another from where it ended: a failure of the second
keeps what the first wrote. -/
theorem WritesPrefix.bind (hx : WritesPrefix x b w [])
    (hy : WritesPrefix y ⟨b.bits ++ w, b.refs⟩ w' rs) :
    WritesPrefix (x >>= fun _ => y) b (w ++ w') rs := by
  rcases hx with hx | ⟨e, pre, hpre, hx⟩
  · rw [List.append_nil] at hx
    rcases hy with hy | ⟨e', pre', hpre', hy⟩
    · left
      rw [EStateM.run_bind, hx]
      simpa using hy
    · refine .inr ⟨e', w ++ pre', (List.prefix_append_right_inj w).mpr hpre', ?_⟩
      rw [EStateM.run_bind, hx]
      simpa using hy
  · refine .inr ⟨e, pre, hpre.trans (List.prefix_append w w'), ?_⟩
    rw [EStateM.run_bind, hx]

/-- What a failure of a store made in steps leaves: the references it started with, and its
bits followed by a prefix of what the store writes. -/
theorem WritesPrefix.of_error (h : WritesPrefix x b w rs) {e : CellError} {b' : Builder}
    (herr : x.run b = .error e b') :
    b'.refs = b.refs ∧ ∃ pre, pre <+: w ∧ b'.bits = b.bits ++ pre := by
  rcases h with hok | ⟨e', pre, hpre, herr'⟩
  · rw [hok] at herr
    cases herr
  · rw [herr'] at herr
    cases herr
    exact ⟨rfl, pre, hpre, rfl⟩

end InPlace

namespace Builder

open InPlace

/-! ## Each store in the program is the store in place, rolled back -/

theorem storeBit_rollsBack (bit : Bool) : RollsBack (storeBit bit) (storeBit bit) := by
  unfold storeBit
  exact RollsBack.bind RollsBack.get fun _ => RollsBack.guard (RollsBack.set _)

theorem storeU128_rollsBack (value width : Nat) :
    RollsBack (storeU128 value width) (storeU128 value width) := by
  unfold storeU128
  exact RollsBack.guard (RollsBack.bind RollsBack.get fun _ => RollsBack.guard (RollsBack.set _))

theorem storeUint_rollsBack (value width : Nat) :
    RollsBack (storeUint value width) (storeUint value width) := by
  unfold storeUint
  exact RollsBack.guard (storeU128_rollsBack value width)

theorem storeBytes_rollsBack (bytes : List UInt8) :
    RollsBack (storeBytes bytes) (storeBytes bytes) := by
  unfold storeBytes
  exact RollsBack.bind RollsBack.get fun _ => RollsBack.guard (RollsBack.set _)

theorem storeRef_rollsBack (c : Cell) : RollsBack (storeRef c) (storeRef c) := by
  unfold storeRef
  exact RollsBack.bind RollsBack.get fun _ => RollsBack.guard (RollsBack.set _)

theorem storeCoins_rollsBack (amount : Nat) :
    RollsBack (storeCoins amount) (storeCoins amount) := by
  unfold storeCoins
  exact RollsBack.guard
    (RollsBack.bind (storeUint_rollsBack _ 4) fun _ => storeU128_rollsBack amount _)

theorem storeAddress_rollsBack (a : Option MsgAddress) :
    RollsBack (storeAddress a) (storeAddress a) := by
  cases a with
  | none => exact storeUint_rollsBack 0 2
  | some a =>
    exact RollsBack.bind (storeUint_rollsBack 2 2) fun _ =>
      RollsBack.bind (storeBit_rollsBack false) fun _ =>
        RollsBack.bind (storeUint_rollsBack _ 8) fun _ => storeBytes_rollsBack a.hash

theorem storeSnakeBytes_rollsBack (bytes : List UInt8) :
    RollsBack (storeSnakeBytes bytes) (storeSnakeBytes bytes) := by
  unfold storeSnakeBytes
  exact RollsBack.bind RollsBack.get fun _ =>
    RollsBack.bind (storeBytes_rollsBack _) fun _ =>
      RollsBack.ite (storeRef_rollsBack _) (RollsBack.pure _)

/-! ## What each store writes in place -/

theorem storeBit_whole (bit : Bool) (b : Builder) : Whole (storeBit bit) b [bit] [] := by
  unfold storeBit
  exact Whole.get_bind (Whole.guard fun _ => Whole.set (by simp))

theorem storeU128_whole (value width : Nat) (b : Builder) :
    Whole (storeU128 value width) b (bitsOfNat width value) [] := by
  unfold storeU128
  exact Whole.guard fun _ => Whole.get_bind (Whole.guard fun _ => Whole.set (by simp))

theorem storeUint_whole (value width : Nat) (b : Builder) :
    Whole (storeUint value width) b (bitsOfNat width value) [] := by
  unfold storeUint
  exact Whole.guard fun _ => storeU128_whole value width b

theorem storeBytes_whole (bytes : List UInt8) (b : Builder) :
    Whole (storeBytes bytes) b (bitsOfBytes bytes) [] := by
  unfold storeBytes
  exact Whole.get_bind (Whole.guard fun _ => Whole.set (by simp))

theorem storeRef_whole (c : Cell) (b : Builder) : Whole (storeRef c) b [] [c] := by
  unfold storeRef
  exact Whole.get_bind (Whole.guard fun _ => Whole.set (by simp))

/-- An amount writes its length and then its bytes, each checked on its own. -/
theorem storeCoins_writesPrefix (amount : Nat) (b : Builder) :
    WritesPrefix (storeCoins amount) b (coinsBits amount) [] := by
  unfold storeCoins coinsBits coinsLength
  exact WritesPrefix.guard fun _ =>
    (storeUint_whole _ 4 b).writesPrefix.bind (storeU128_whole amount _ _).writesPrefix

/-- An address writes its tag, the anycast bit, the workchain and the hash, each checked on its
own. -/
theorem storeAddress_writesPrefix (a : MsgAddress) (b : Builder) :
    WritesPrefix (storeAddress (some a)) b (addressBits a) [] := by
  unfold storeAddress addressBits
  simp only [List.append_assoc]
  exact (storeUint_whole 2 2 b).writesPrefix.bind ((storeBit_whole false _).writesPrefix.bind
    ((storeUint_whole _ 8 _).writesPrefix.bind (storeBytes_whole a.hash _).writesPrefix))

/-- A snake writes the bytes that fit here, then, if some are left, the reference to their
chain. -/
theorem storeSnakeBytes_writesPrefix (bytes : List UInt8) (b : Builder) :
    WritesPrefix (storeSnakeBytes bytes) b (bitsOfBytes (bytes.take (snakeFit b bytes)))
      (snakeRest b bytes) := by
  have hrest : Whole (if snakeFit b bytes < bytes.length then
        storeRef (snakeCell (bytes.drop (snakeFit b bytes))) else Pure.pure ())
      ⟨b.bits ++ bitsOfBytes (bytes.take (snakeFit b bytes)), b.refs⟩ []
      (snakeRest b bytes) := by
    unfold snakeRest
    split
    · exact storeRef_whole _ _
    · exact Whole.pure
  rw [← List.append_nil (bitsOfBytes _)]
  unfold storeSnakeBytes
  exact WritesPrefix.get_bind ((storeBytes_whole _ b).writesPrefix.bind hrest.writesPrefix)

/-! ## What the stores made in steps leave behind

Each of the three fails part way when its first writes have room and a later one does
not; the builder then keeps the first writes.
-/

/-- An amount whose length fits and whose bytes do not: the store fails, and the builder keeps
the four bits of the length. -/
theorem storeCoins_leaves_length {amount : Nat} {b : Builder} (ha : amount < 2 ^ 120)
    (hroom : 4 ≤ b.bitsLeft) (hshort : b.bitsLeft < 4 + coinsLength amount * 8) :
    ∃ e, (storeCoins amount : InPlace Unit).run b =
      .error e ⟨b.bits ++ bitsOfNat 4 (coinsLength amount), b.refs⟩ := by
  have hlen := coinsLength_le ha
  let b₁ : Builder := ⟨b.bits ++ bitsOfNat 4 (coinsLength amount), b.refs⟩
  -- the length is written
  have h₁ : (storeUint (coinsLength amount) 4 : InPlace Unit).run b = .ok () b₁ :=
    (storeUint_rollsBack _ 4).ok_iff.mp (storeUint_run (by decide) (by omega) hroom)
  -- then the program refuses the bytes, for want of room
  have hfull : ∃ e, (storeU128 amount (coinsLength amount * 8) : Build).run b₁ = .error e := by
    cases hrun : (storeU128 amount (coinsLength amount * 8) : Build).run b₁ with
    | error e => exact ⟨e, rfl⟩
    | ok p =>
      obtain ⟨-, -, hroom'⟩ := storeU128_ok hrun
      simp only [b₁, bitsLeft_append, bitsOfNat_length] at hroom'
      omega
  obtain ⟨e, he⟩ := hfull
  refine ⟨e, ?_⟩
  unfold storeCoins
  rw [show (bitLength amount + 7) / 8 = coinsLength amount from rfl]
  simp only [show ¬ coinsLength amount > 15 by omega, if_false]
  rw [EStateM.run_bind, h₁]
  exact (storeU128_whole _ _ b₁).error_of_rollsBack (storeU128_rollsBack _ _) he

/-- An internal address with room for its tag and not its anycast bit: the store fails, and the
builder keeps the tag. -/
theorem storeAddress_leaves_tag {a : MsgAddress} {b : Builder} (hroom : 2 ≤ b.bitsLeft)
    (hshort : b.bitsLeft < 3) :
    ∃ e, (storeAddress (some a) : InPlace Unit).run b =
      .error e ⟨b.bits ++ bitsOfNat 2 2, b.refs⟩ := by
  let b₁ : Builder := ⟨b.bits ++ bitsOfNat 2 2, b.refs⟩
  have h₁ : (storeUint 2 2 : InPlace Unit).run b = .ok () b₁ :=
    (storeUint_rollsBack 2 2).ok_iff.mp (storeUint_run (by decide) (by decide) hroom)
  -- the cell is full after the tag, so the program refuses the anycast bit
  have hfull : ∃ e, (storeBit false : Build).run b₁ = .error e := by
    cases hrun : (storeBit false : Build).run b₁ with
    | error e => exact ⟨e, rfl⟩
    | ok p =>
      have hbits := storeBit_ok hrun
      simp only [b₁, List.length_append, bitsOfNat_length, bitsLeft] at hbits hroom hshort
      omega
  obtain ⟨e, he⟩ := hfull
  refine ⟨e, ?_⟩
  have h₂ := (storeBit_whole false b₁).error_of_rollsBack (storeBit_rollsBack false) he
  simp only [storeAddress]
  rw [EStateM.run_bind, h₁]
  dsimp only
  rw [EStateM.run_bind, h₂]

/-- The program refuses a reference past the fourth. -/
theorem storeRef_full {c : Cell} {b : Builder} (h : maxCellRefs ≤ b.refs.length) :
    ∃ e, (storeRef c : Build).run b = .error e := by
  simp only [storeRef, StateT.run_bind, StateT.run_get, pure_bind,
    show b.refs.length ≥ maxCellRefs from h, if_true]
  exact ⟨_, rfl⟩

/-- A snake longer than the room left, into a builder whose references are all taken: the store
fails, and the builder keeps the bytes that fit. -/
theorem storeSnakeBytes_leaves_bytes {bytes : List UInt8} {b : Builder}
    (hrefs : maxCellRefs ≤ b.refs.length) (hlong : snakeFit b bytes < bytes.length) :
    ∃ e, (storeSnakeBytes bytes : InPlace Unit).run b =
      .error e ⟨b.bits ++ bitsOfBytes (bytes.take (snakeFit b bytes)), b.refs⟩ := by
  let b₁ : Builder := ⟨b.bits ++ bitsOfBytes (bytes.take (snakeFit b bytes)), b.refs⟩
  have h₁ : (storeBytes (bytes.take (snakeFit b bytes)) : InPlace Unit).run b = .ok () b₁ :=
    (storeBytes_rollsBack _).ok_iff.mp (storeBytes_run (by simp [snakeFit]; omega))
  obtain ⟨e, he⟩ :=
    storeRef_full (c := snakeCell (bytes.drop (snakeFit b bytes))) (b := b₁) hrefs
  refine ⟨e, ?_⟩
  have h₂ := (storeRef_whole _ b₁).error_of_rollsBack (storeRef_rollsBack _) he
  unfold storeSnakeBytes
  rw [EStateM.run_bind, EStateM.run_get]
  dsimp only
  rw [show min (b.bitsLeft / 8) bytes.length = snakeFit b bytes from rfl, EStateM.run_bind, h₁]
  simp only [hlong, if_true]
  exact h₂

end Builder

/-! ## Every store -/

/-- A call of one of the builder's stores. -/
inductive BuilderCall where
  | bit (b : Bool)
  | uint (value width : Nat)
  | u128 (value width : Nat)
  | bytes (data : List UInt8)
  | coins (amount : Nat)
  | address (a : Option MsgAddress)
  | ref (c : Cell)
  | snakeBytes (data : List UInt8)

namespace BuilderCall

open InPlace

/-- The store the call makes. -/
def store {m : Type → Type} [Monad m] [MonadStateOf Builder m] [MonadExceptOf CellError m] :
    BuilderCall → m Unit
  | bit b => Builder.storeBit b
  | uint v w => Builder.storeUint v w
  | u128 v w => Builder.storeU128 v w
  | bytes d => Builder.storeBytes d
  | coins a => Builder.storeCoins a
  | address a => Builder.storeAddress a
  | ref c => Builder.storeRef c
  | snakeBytes d => Builder.storeSnakeBytes d

/-- The bits the call appends to `b` when it succeeds. -/
def written (b : Builder) : BuilderCall → List Bool
  | bit x => [x]
  | uint v w | u128 v w => bitsOfNat w v
  | bytes d => bitsOfBytes d
  | coins a => coinsBits a
  | address none => bitsOfNat 2 0
  | address (some a) => addressBits a
  | ref _ => []
  | snakeBytes d => bitsOfBytes (d.take (Builder.snakeFit b d))

/-- The references the call appends to `b` when it succeeds. -/
def added (b : Builder) : BuilderCall → List Cell
  | ref c => [c]
  | snakeBytes d => Builder.snakeRest b d
  | _ => []

/-- The calls whose store is one write, checked whole before it is made. -/
def Single : BuilderCall → Prop
  | coins _ | address (some _) | snakeBytes _ => False
  | _ => True

/-- The program runs every store as the builder makes it in place, with the builder of a failure
dropped. -/
theorem store_rollsBack (call : BuilderCall) : RollsBack call.store call.store := by
  cases call with
  | bit x => exact Builder.storeBit_rollsBack x
  | uint v w => exact Builder.storeUint_rollsBack v w
  | u128 v w => exact Builder.storeU128_rollsBack v w
  | bytes d => exact Builder.storeBytes_rollsBack d
  | coins a => exact Builder.storeCoins_rollsBack a
  | address a => exact Builder.storeAddress_rollsBack a
  | ref c => exact Builder.storeRef_rollsBack c
  | snakeBytes d => exact Builder.storeSnakeBytes_rollsBack d

/-- A store of one write either makes it or fails with the builder as it was. -/
theorem whole {call : BuilderCall} (h : call.Single) (b : Builder) :
    Whole call.store b (call.written b) (call.added b) := by
  cases call with
  | bit x => exact Builder.storeBit_whole x b
  | uint v w => exact Builder.storeUint_whole v w b
  | u128 v w => exact Builder.storeU128_whole v w b
  | bytes d => exact Builder.storeBytes_whole d b
  | address a =>
    cases a with
    | none => exact Builder.storeUint_whole 0 2 b
    | some a => exact h.elim
  | ref c => exact Builder.storeRef_whole c b
  | coins _ | snakeBytes _ => exact h.elim

/-- Every store either makes its writes or fails having made a prefix of them and added no
reference. -/
theorem writesPrefix (call : BuilderCall) (b : Builder) :
    WritesPrefix call.store b (call.written b) (call.added b) := by
  by_cases h : call.Single
  · exact (whole h b).writesPrefix
  · cases call with
    | coins a => exact Builder.storeCoins_writesPrefix a b
    | address a =>
      cases a with
      | none => exact h.elim trivial
      | some a => exact Builder.storeAddress_writesPrefix a b
    | snakeBytes d => exact Builder.storeSnakeBytes_writesPrefix d b
    | bit _ | uint _ _ | u128 _ _ | bytes _ | ref _ => exact h.elim trivial

end BuilderCall

/-- A failed store adds no reference to the builder, and leaves its bits followed by a prefix of
the bits the store writes. A store of one write (a bit, an integer of 64 or 128 bits, bytes, a
reference, the empty address) leaves the builder as it was. An amount, an internal address and a
snake are written in steps, and a failure keeps the steps made before it. -/
theorem failed_store_leaves_prefix (call : BuilderCall) (b b' : Builder) (e : CellError)
    (h : (call.store : InPlace Unit).run b = .error e b') :
    b'.refs = b.refs ∧ (∃ pre, pre <+: call.written b ∧ b'.bits = b.bits ++ pre) ∧
      (call.Single → b' = b) := by
  obtain ⟨hrefs, hbits⟩ := (call.writesPrefix b).of_error h
  exact ⟨hrefs, hbits, fun hs => (BuilderCall.whole hs b).eq_of_error h⟩

/-- An amount of one after 1019 bits: the store fails for want of room, and the builder keeps
the length `0001`. -/
theorem storeCoins_one_after_1019_bits :
    ∃ e, (Builder.storeCoins 1 : InPlace Unit).run ⟨List.replicate 1019 false, []⟩ =
      .error e ⟨List.replicate 1019 false ++ [false, false, false, true], []⟩ := by
  have hleft : (⟨List.replicate 1019 false, []⟩ : Builder).bitsLeft = 4 := by
    simp only [Builder.bitsLeft, List.length_replicate]
    rfl
  have hlen : coinsLength 1 = 1 := by decide
  exact @Builder.storeCoins_leaves_length 1 ⟨List.replicate 1019 false, []⟩ (by decide)
    (by omega)
    (by rw [hlen]; omega)

/-- The failure above, read through the theorem: the length is the prefix it keeps. -/
theorem failed_coins_store_keeps_prefix :
    ∃ e b', ((BuilderCall.coins 1).store : InPlace Unit).run ⟨List.replicate 1019 false, []⟩ =
        .error e b' ∧ b'.refs = [] ∧
      (∃ pre, pre <+: (BuilderCall.coins 1).written ⟨List.replicate 1019 false, []⟩ ∧
        b'.bits = List.replicate 1019 false ++ pre) ∧
      ((BuilderCall.coins 1).Single → b' = ⟨List.replicate 1019 false, []⟩) := by
  obtain ⟨e, h⟩ := storeCoins_one_after_1019_bits
  exact ⟨e, _, h, failed_store_leaves_prefix (.coins 1) _ _ e h⟩

end PoolTreasury
