import PoolTreasury.Proofs.Cell.Boc
import PoolTreasury.Wire.Message

/-! # Building cells

The program runs the builder's stores in `Build`, where a failing store abandons the builder
with the cell. Here each store is run on a builder with room for it and its effect is written
out: which bits and which references it appends. From these, the forward payload and the
transfer notification that carry a request are given as explicit cells, and shown to be within
the cell limits.
-/

namespace PoolTreasury

namespace Builder

@[simp] theorem bitsLeft_append (b : Builder) (bits : List Bool) :
    ({ b with bits := b.bits ++ bits } : Builder).bitsLeft = b.bitsLeft - bits.length := by
  simp only [bitsLeft, List.length_append]
  omega

theorem storeBit_run {b : Builder} (h : b.bits.length < maxCellBits) (bit : Bool) :
    (storeBit bit : Build).run b = .ok ((), { b with bits := b.bits ++ [bit] }) := by
  have hroom : ¬ b.bits.length ≥ maxCellBits := by omega
  simp only [storeBit, StateT.run_bind, StateT.run_get, pure_bind, hroom, if_false,
    StateT.run_set]
  rfl

theorem storeU128_run {b : Builder} {value width : Nat} (hw : width ≤ 128)
    (hv : value < 2 ^ width) (hroom : width ≤ b.bitsLeft) :
    (storeU128 value width : Build).run b = .ok ((), { b with bits := b.bits ++ bitsOfNat width value }) := by
  have hfits : ¬ (width > 128 ∨ (width < 128 ∧ value / 2 ^ width ≠ 0)) := by
    rw [Nat.div_eq_of_lt hv]
    omega
  have hleft : ¬ width > b.bitsLeft := by omega
  simp only [storeU128, hfits, if_false, StateT.run_bind, pure_bind, StateT.run_get, hleft,
    StateT.run_set]
  rfl

theorem storeUint_run {b : Builder} {value width : Nat} (hw : width ≤ 64)
    (hv : value < 2 ^ width) (hroom : width ≤ b.bitsLeft) :
    (storeUint value width : Build).run b = .ok ((), { b with bits := b.bits ++ bitsOfNat width value }) := by
  have hsmall : ¬ width > 64 := by omega
  simp only [storeUint, hsmall, if_false]
  exact storeU128_run (by omega) hv hroom

theorem storeBytes_run {b : Builder} {bytes : List UInt8} (hroom : bytes.length * 8 ≤ b.bitsLeft) :
    (storeBytes bytes : Build).run b = .ok ((), { b with bits := b.bits ++ bitsOfBytes bytes }) := by
  have hleft : ¬ bytes.length * 8 > b.bitsLeft := by omega
  simp only [storeBytes, StateT.run_bind, StateT.run_get, pure_bind, hleft, if_false,
    StateT.run_set]
  rfl

theorem storeRef_run {b : Builder} (h : b.refs.length < maxCellRefs) (c : Cell) :
    (storeRef c : Build).run b = .ok ((), { b with refs := b.refs ++ [c] }) := by
  have hroom : ¬ b.refs.length ≥ maxCellRefs := by omega
  simp only [storeRef, StateT.run_bind, StateT.run_get, pure_bind, hroom, if_false,
    StateT.run_set]
  rfl

end Builder

/-! ## Amounts and addresses

An amount is written as its byte count in four bits, then the amount in that many bytes; an
internal address as the tag `10`, no anycast, the workchain as a byte and the hash.
-/

theorem lt_two_pow_bitLength (n : Nat) : n < 2 ^ bitLength n := by
  unfold bitLength
  split
  · omega
  · exact Nat.lt_log2_self

theorem bitLength_le {n w : Nat} (h : n < 2 ^ w) : bitLength n ≤ w := by
  unfold bitLength
  split
  · omega
  · have := (Nat.log2_lt (by omega)).mpr h
    omega

/-- The number of bytes `storeCoins` gives an amount. -/
def coinsLength (amount : Nat) : Nat := (bitLength amount + 7) / 8

/-- The bits `storeCoins` writes: the byte count in four bits, then the amount in that many
bytes. -/
def coinsBits (amount : Nat) : List Bool :=
  bitsOfNat 4 (coinsLength amount) ++ bitsOfNat (coinsLength amount * 8) amount

theorem coinsLength_le {amount : Nat} (h : amount < 2 ^ 120) : coinsLength amount ≤ 15 := by
  have := bitLength_le h
  unfold coinsLength
  omega

theorem lt_two_pow_coinsLength (amount : Nat) : amount < 2 ^ (coinsLength amount * 8) :=
  Nat.lt_of_lt_of_le (lt_two_pow_bitLength amount)
    (Nat.pow_le_pow_right (by decide) (by unfold coinsLength; omega))

@[simp] theorem coinsBits_length (amount : Nat) :
    (coinsBits amount).length = 4 + coinsLength amount * 8 := by
  simp [coinsBits]

namespace Builder

theorem storeCoins_run {b : Builder} {amount : Nat} (h : amount < 2 ^ 120)
    (hroom : 4 + coinsLength amount * 8 ≤ b.bitsLeft) :
    (storeCoins amount : Build).run b = .ok ((), { b with bits := b.bits ++ coinsBits amount }) := by
  have hlen := coinsLength_le h
  have hsmall : ¬ coinsLength amount > 15 := by omega
  simp only [storeCoins]
  rw [show (bitLength amount + 7) / 8 = coinsLength amount from rfl]
  simp only [hsmall, if_false]
  rw [run_bind_ok (storeUint_run (by decide) (by omega) (by omega)),
    storeU128_run (by omega) (lt_two_pow_coinsLength amount) (by simp; omega)]
  simp [coinsBits]

end Builder

/-- The bits `storeAddress` writes for an internal address: the tag `10`, no anycast, the
workchain as a byte, and the hash. -/
def addressBits (a : MsgAddress) : List Bool :=
  bitsOfNat 2 2 ++ [false] ++ bitsOfNat 8 a.workchain.toUInt8.toNat ++ bitsOfBytes a.hash

@[simp] theorem addressBits_length (a : MsgAddress) :
    (addressBits a).length = 11 + 8 * a.hash.length := by
  simp [addressBits]
  omega

namespace Builder

theorem storeAddress_run {b : Builder} {a : MsgAddress} (hhash : a.hash.length = 32)
    (hroom : 267 ≤ b.bitsLeft) :
    (storeAddress (some a) : Build).run b = .ok ((), { b with bits := b.bits ++ addressBits a }) := by
  have hbits : b.bits.length + 2 < maxCellBits := by simp only [bitsLeft] at hroom; omega
  simp only [storeAddress]
  rw [run_bind_ok (storeUint_run (by decide) (by decide) (by omega)),
    run_bind_ok (storeBit_run (by simpa using hbits) false),
    run_bind_ok (storeUint_run (by decide) a.workchain.toUInt8.toNat_lt (by simp; omega)),
    storeBytes_run (by simp; omega)]
  simp [addressBits]

/-- How many whole bytes `storeSnakeBytes` keeps in the builder it is given. -/
def snakeFit (b : Builder) (bytes : List UInt8) : Nat := min (b.bitsLeft / 8) bytes.length

/-- The chain `storeSnakeBytes` puts in a new reference: none when every byte fits. -/
def snakeRest (b : Builder) (bytes : List UInt8) : List Cell :=
  if snakeFit b bytes < bytes.length then [snakeCell (bytes.drop (snakeFit b bytes))] else []

/-- Storing bytes as a snake keeps here the whole bytes that fit and puts the rest, if any, in a
chain of cells in a new reference. -/
theorem storeSnakeBytes_run {b : Builder} (h : b.refs.length < maxCellRefs) (bytes : List UInt8) :
    (storeSnakeBytes bytes : Build).run b =
      .ok ((), ⟨b.bits ++ bitsOfBytes (bytes.take (snakeFit b bytes)),
        b.refs ++ snakeRest b bytes⟩) := by
  have hget : (get : StateT Builder (Except CellError) Builder).run b = .ok (b, b) := rfl
  have hstore : (storeBytes (bytes.take (snakeFit b bytes)) : Build).run b =
      .ok ((), { b with bits := b.bits ++ bitsOfBytes (bytes.take (snakeFit b bytes)) }) :=
    storeBytes_run (by simp [snakeFit]; omega)
  unfold storeSnakeBytes
  rw [run_bind_ok hget]
  dsimp only
  rw [show min (b.bitsLeft / 8) bytes.length = snakeFit b bytes from rfl, run_bind_ok hstore]
  unfold snakeRest
  split
  · exact storeRef_run (b := ⟨b.bits ++ bitsOfBytes (bytes.take (snakeFit b bytes)), b.refs⟩) h _
  · simp only [StateT.run_pure, List.append_nil]
    rfl

/-- Storing bits one by one appends them all, when they fit. -/
theorem forIn_storeBit_run (bits : List Bool) {b : Builder}
    (h : b.bits.length + bits.length ≤ maxCellBits) :
    (forIn bits PUnit.unit fun bit _ => do
        storeBit bit
        pure (ForInStep.yield PUnit.unit) : Build).run b =
      .ok (PUnit.unit, { b with bits := b.bits ++ bits }) := by
  induction bits generalizing b with
  | nil =>
    simp only [List.forIn_nil, StateT.run_pure, List.append_nil]
    rfl
  | cons bit bits ih =>
    have hroom : b.bits.length < maxCellBits := by simp at h; omega
    rw [List.forIn_cons, run_bind_ok (run_bind_ok (storeBit_run hroom bit))]
    dsimp only
    rw [ih (by simp at h ⊢; omega)]
    simp

/-- Storing references one by one appends them all, when they fit. -/
theorem forIn_storeRef_run (refs : List Cell) {b : Builder}
    (h : b.refs.length + refs.length ≤ maxCellRefs) :
    (forIn refs PUnit.unit fun c _ => do
        storeRef c
        pure (ForInStep.yield PUnit.unit) : Build).run b =
      .ok (PUnit.unit, { b with refs := b.refs ++ refs }) := by
  induction refs generalizing b with
  | nil =>
    simp only [List.forIn_nil, StateT.run_pure, List.append_nil]
    rfl
  | cons c refs ih =>
    have hroom : b.refs.length < maxCellRefs := by simp at h; omega
    rw [List.forIn_cons, run_bind_ok (run_bind_ok (storeRef_run hroom c))]
    dsimp only
    rw [ih (by simp at h ⊢; omega)]
    simp

end Builder

open Builder

/-- A cell built from the empty builder by a run that succeeded. -/
theorem buildCell_ok {stores : Build} {b : Builder} (h : stores.run {} = .ok ((), b)) :
    buildCell stores = .ok b.build := by
  rw [buildCell, h]
  rfl

/-! ## Chains of cells -/

theorem snakeCell_short {bytes : List UInt8} (h : bytes.length ≤ maxCellBits / 8) :
    snakeCell bytes = ⟨bitsOfBytes bytes, []⟩ := by
  rw [snakeCell, dif_pos h]

theorem snakeCell_long {bytes : List UInt8} (h : ¬ bytes.length ≤ maxCellBits / 8) :
    snakeCell bytes = ⟨bitsOfBytes (bytes.take (maxCellBits / 8)),
      [snakeCell (bytes.drop (maxCellBits / 8))]⟩ := by
  rw [snakeCell, dif_neg h]

/-- The whole bytes of the bits of bytes are those bytes. -/
theorem wholeBytes_bitsOfBytes (bytes : List UInt8) :
    bytesOfBits ((bitsOfBytes bytes).take ((bitsOfBytes bytes).length / 8 * 8)) = bytes := by
  rw [bitsOfBytes_length, show 8 * bytes.length / 8 * 8 = (bitsOfBytes bytes).length by simp; omega,
    List.take_length, bytesOfBits_bitsOfBytes]

/-- The bytes of a chain read back as the bytes it was made of. -/
theorem chainBytes_snakeCell (bytes : List UInt8) : (snakeCell bytes).chainBytes = bytes := by
  induction bytes using snakeCell.induct with
  | case1 bytes h =>
    rw [snakeCell_short h, Cell.chainBytes, wholeBytes_bitsOfBytes]
  | case2 bytes h ih =>
    rw [snakeCell_long h, Cell.chainBytes, wholeBytes_bitsOfBytes, ih, List.take_append_drop]

/-! ## The forward payload -/

/-- The forward payload cell for a request code and payload text: the code and the text's length
as a header of 48 bits, then the first 121 bytes of text, the rest in a chain of cells. -/
def forwardCell (opCode : Nat) (text : List UInt8) : Cell :=
  ⟨bitsOfNat 32 opCode ++ bitsOfNat 16 text.length ++ bitsOfBytes (text.take (min 121 text.length)),
    if min 121 text.length < text.length then [snakeCell (text.drop (min 121 text.length))]
    else []⟩

/-- The payload text of a forward payload: the standard base64 text of the payload, as bytes. -/
def payloadText (payload : List UInt8) : List UInt8 := (base64Encode .standard payload).toUTF8.toList

theorem payloadText_length (payload : List UInt8) :
    (payloadText payload).length = 4 * ((payload.length + 2) / 3) := by
  unfold payloadText base64Encode
  rw [toUTF8_ofList_ascii fun c hc => (standard_readable.encodeChars_ascii hc).1,
    List.length_map, encodeChars_length]

theorem forwardPayload_eq {opCode : Nat} {payload : List UInt8} (hop : opCode < 2 ^ 32)
    (hlen : (payloadText payload).length < 2 ^ 16) :
    forwardPayload opCode payload = .ok (forwardCell opCode (payloadText payload)) := by
  unfold forwardPayload
  rw [show (base64Encode .standard payload).toUTF8.toList = payloadText payload from rfl]
  apply buildCell_ok (b := ⟨(forwardCell opCode (payloadText payload)).bits,
    (forwardCell opCode (payloadText payload)).refs⟩)
  rw [run_bind_ok (storeUint_run (b := {}) (by decide) hop (by decide)),
    run_bind_ok (storeUint_run (by decide) hlen (by simp [bitsLeft, maxCellBits])),
    storeSnakeBytes_run (by simp [maxCellRefs])]
  -- 48 bits of header leave room for 121 whole bytes
  have hfit : ({ bits := bitsOfNat 32 opCode ++ bitsOfNat 16 (payloadText payload).length } :
      Builder).bitsLeft / 8 = 121 := by
    simp [bitsLeft, maxCellBits]
  simp only [snakeFit, snakeRest, List.nil_append, hfit]
  rfl

/-! ## The transfer notification -/

/-- The bits of a transfer notification before its forward payload: the operation code, the
query id, the amount and the sender. -/
def notificationHeader (queryId amount : Nat) (sender : MsgAddress) : List Bool :=
  bitsOfNat 32 opTransferNotification ++ bitsOfNat 64 queryId ++ coinsBits amount ++
    addressBits sender

theorem notificationHeader_length {queryId amount : Nat} {sender : MsgAddress}
    (hhash : sender.hash.length = 32) :
    (notificationHeader queryId amount sender).length = 367 + coinsLength amount * 8 := by
  simp [notificationHeader, hhash]
  omega

/-- How a transfer notification carries its forward payload: inline after a `0` bit, with the
payload's references as its own, or alone in its reference after a `1` bit. -/
inductive Carries (forward : Cell) : List Bool → List Cell → Prop
  | inline : Carries forward (false :: forward.bits) forward.refs
  | ref : Carries forward [true] [forward]

/-- A transfer notification is its header followed by the forward payload, carried one way or
the other, and it fits in a cell. -/
theorem transferNotification_carries {queryId amount : Nat} {sender : MsgAddress} {forward : Cell}
    (hq : queryId < 2 ^ 64) (ha : amount < 2 ^ 120) (hhash : sender.hash.length = 32)
    (hrefs : forward.refs.length ≤ maxCellRefs) (inline : Bool) :
    ∃ tail refs, Carries forward tail refs ∧
      (notificationHeader queryId amount sender ++ tail).length ≤ maxCellBits ∧
      transferNotification queryId amount sender forward inline =
        .ok ⟨notificationHeader queryId amount sender ++ tail, refs⟩ := by
  have hlen : (notificationHeader queryId amount sender).length = 367 + coinsLength amount * 8 :=
    notificationHeader_length hhash
  have hcoins := coinsLength_le ha
  have hleft : (⟨notificationHeader queryId amount sender, []⟩ : Builder).bitsLeft =
      1023 - (367 + coinsLength amount * 8) := by
    simp [bitsLeft, hlen, maxCellBits]
  unfold transferNotification buildCell
  -- the header is written by four stores into the empty builder
  rw [run_bind_ok (storeUint_run (b := {}) (by decide) (by decide) (by decide)),
    run_bind_ok (storeUint_run (by decide) hq (by simp [bitsLeft, maxCellBits])),
    run_bind_ok (storeCoins_run ha (by simp [bitsLeft, maxCellBits]; omega)),
    run_bind_ok (storeAddress_run hhash (by simp [bitsLeft, maxCellBits]; omega))]
  dsimp only
  rw [List.nil_append, ← show notificationHeader queryId amount sender =
    bitsOfNat 32 opTransferNotification ++ bitsOfNat 64 queryId ++ coinsBits amount ++
      addressBits sender from rfl]
  have hget : (get : StateT Builder (Except CellError) Builder).run
      ⟨notificationHeader queryId amount sender, []⟩ =
        .ok (⟨notificationHeader queryId amount sender, []⟩, ⟨notificationHeader queryId amount sender, []⟩) := rfl
  rw [run_bind_ok hget]
  split
  · -- inline: the marker bit, then the payload's bits and references
    rename_i hinline
    simp only [Bool.and_eq_true, decide_eq_true_eq, hleft] at hinline
    refine ⟨false :: forward.bits, forward.refs, .inline, by simp [hlen, maxCellBits]; omega, ?_⟩
    rw [run_bind_ok (storeBit_run (by simp [hlen, maxCellBits]; omega) false),
      run_bind_ok (forIn_storeBit_run forward.bits (by simp [hlen, maxCellBits]; omega)),
      run_bind_ok (forIn_storeRef_run forward.refs (by simpa using hrefs))]
    simp [Builder.build]
    rfl
  · -- in a reference after a `1` bit
    refine ⟨[true], [forward], .ref, by simp [hlen, maxCellBits]; omega, ?_⟩
    rw [run_bind_ok (storeBit_run (by simp [hlen, maxCellBits]; omega) true),
      storeRef_run (by simp [maxCellRefs]) forward]
    rfl

/-! ## Within the limits of a bag of cells -/

theorem snakeCell_fits (bytes : List UInt8) : (snakeCell bytes).Fits := by
  induction bytes using snakeCell.induct with
  | case1 bytes h =>
    rw [snakeCell_short h]
    exact .mk (by simp [maxCellBits] at h ⊢; omega) (by simp) (by simp)
  | case2 bytes h ih =>
    rw [snakeCell_long h]
    exact .mk (by simp [maxCellBits]; omega) (by simp [maxCellRefs]) (by simpa using ih)

theorem forwardCell_fits (opCode : Nat) (text : List UInt8) : (forwardCell opCode text).Fits := by
  refine .mk (by simp [maxCellBits]; omega) ?_ ?_
  · split <;> simp [maxCellRefs]
  · split
    · simpa using snakeCell_fits _
    · simp

/-- A notification carrying a payload within the limits is within them, whatever its bits, as long
as they fit. -/
theorem Carries.fits {forward : Cell} {tail : List Bool} {refs : List Cell}
    (h : Carries forward tail refs) (hf : forward.Fits) {bits : List Bool}
    (hbits : bits.length ≤ maxCellBits) : (⟨bits, refs⟩ : Cell).Fits := by
  cases h with
  | inline =>
    cases hf with
    | mk _ hrefs hchildren => exact .mk hbits hrefs hchildren
  | ref => exact .mk hbits (by simp [maxCellRefs]) (by simpa using hf)

theorem preorder_length_congr {c d : Cell} (h : c.refs = d.refs) (s : Nat) :
    (preorder s c).length = (preorder s d).length := by
  rw [preorder_eq, preorder_eq, h]
  rfl

theorem preorder_length_leaf {c : Cell} (h : c.refs = []) (s : Nat) : (preorder s c).length = 1 := by
  rw [preorder_eq, h]
  rfl

theorem preorder_length_single {c r : Cell} (h : c.refs = [r]) (s : Nat) :
    (preorder s c).length = (preorder (s + 1) r).length + 1 := by
  rw [preorder_eq, h, children_cons]
  simp [preorder.children]

theorem preorder_length_snakeCell (bytes : List UInt8) :
    ∀ s, (preorder s (snakeCell bytes)).length ≤ bytes.length + 1 := by
  induction bytes using snakeCell.induct with
  | case1 bytes h =>
    intro s
    rw [preorder_length_leaf (by rw [snakeCell_short h])]
    omega
  | case2 bytes h ih =>
    intro s
    rw [preorder_length_single (by rw [snakeCell_long h])]
    have hrest := ih (s + 1)
    have hwhole : maxCellBits / 8 = 127 := rfl
    rw [List.length_drop] at hrest
    omega

theorem preorder_length_forwardCell (opCode : Nat) (text : List UInt8) :
    ∀ s, (preorder s (forwardCell opCode text)).length ≤ text.length + 2 := by
  intro s
  by_cases hlong : min 121 text.length < text.length
  · rw [preorder_length_single (r := snakeCell (text.drop (min 121 text.length)))
      (by simp only [forwardCell, if_pos hlong])]
    have hrest := preorder_length_snakeCell (text.drop (min 121 text.length)) (s + 1)
    rw [List.length_drop] at hrest
    omega
  · rw [preorder_length_leaf (by simp only [forwardCell, if_neg hlong])]
    omega

/-- A notification has one cell more than the payload it carries. -/
theorem Carries.preorder_length_le {forward : Cell} {tail : List Bool} {refs : List Cell}
    (h : Carries forward tail refs) {bound : Nat} (hbound : ∀ s, (preorder s forward).length ≤ bound)
    (bits : List Bool) (s : Nat) : (preorder s ⟨bits, refs⟩).length ≤ bound + 1 := by
  cases h with
  | inline =>
    rw [preorder_length_congr (c := ⟨bits, forward.refs⟩) (d := forward) rfl]
    exact Nat.le_succ_of_le (hbound s)
  | ref =>
    rw [preorder_length_single rfl]
    exact Nat.succ_le_succ (hbound (s + 1))

end PoolTreasury
