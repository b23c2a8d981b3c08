import PoolTreasury.Proofs.Cell.Read

/-! # Byte strings across a chain of cells

A byte string too long for one cell is kept as a snake: a chain of cells, each holding the next
127 whole bytes and continuing into its only reference. `Cell.chain` lists the cells of such a
chain. A snake of `n` bytes has `⌈n / 127⌉` cells, one when it is empty, and they hold the runs
of 127 bytes of the string in order (`snakeCell_chain_bits`).

A builder stores a string as a snake from where it stands: the whole bytes that fit stay in its
cell, and the rest goes into a new reference as a chain. The reader takes the whole bytes left
in the cell, then follows the next reference and its first references after it. Both split at
the same place, so a slice that stands where the store began reads the string back
(`snake_bytes_roundTrip`).
-/

namespace PoolTreasury

namespace Cell

/-- The cells of a chain: this one, then those reached through first references. -/
def chain : Cell → List Cell
  | c@⟨_, []⟩ => [c]
  | c@⟨_, r :: _⟩ => c :: chain r

end Cell

/-- A cell of a snake holds 127 whole bytes. -/
theorem maxCellBits_bytes : maxCellBits / 8 = 127 := rfl

theorem chain_snakeCell_short {bytes : List UInt8} (h : bytes.length ≤ 127) :
    (snakeCell bytes).chain = [snakeCell bytes] := by
  rw [snakeCell_short (by rwa [maxCellBits_bytes]), Cell.chain]

theorem chain_snakeCell_long {bytes : List UInt8} (h : ¬ bytes.length ≤ 127) :
    (snakeCell bytes).chain = snakeCell bytes :: (snakeCell (bytes.drop 127)).chain := by
  rw [snakeCell_long (by rwa [maxCellBits_bytes])]
  rfl

/-- The cells of a snake hold, in order, the runs of 127 bytes of the string, the last run
possibly shorter: `⌈n / 127⌉` runs for `n` bytes, and one empty run when there are none. -/
theorem snakeCell_chain_bits (bytes : List UInt8) :
    (snakeCell bytes).chain.map Cell.bits =
      (List.range (max 1 ((bytes.length + 126) / 127))).map fun i =>
        bitsOfBytes ((bytes.drop (127 * i)).take 127) := by
  induction bytes using snakeCell.induct with
  | case1 bytes h =>
    rw [maxCellBits_bytes] at h
    have hone : max 1 ((bytes.length + 126) / 127) = 1 := by omega
    rw [chain_snakeCell_short h, hone, snakeCell_short (by rwa [maxCellBits_bytes])]
    simp [List.take_of_length_le h]
  | case2 bytes h ih =>
    rw [maxCellBits_bytes] at h ih
    -- one cell more than the snake of what follows the first 127 bytes
    have hsucc : max 1 ((bytes.length + 126) / 127) =
        max 1 (((bytes.drop 127).length + 126) / 127) + 1 := by
      rw [List.length_drop]
      omega
    rw [chain_snakeCell_long h, List.map_cons, ih, hsucc, List.range_succ_eq_map, List.map_cons,
      List.map_map, snakeCell_long (by rwa [maxCellBits_bytes])]
    congr 1
    refine List.map_congr_left fun i _ => ?_
    simp only [Function.comp_apply, List.drop_drop, Nat.mul_succ, Nat.add_comm]

theorem snakeCell_chain_length (bytes : List UInt8) :
    (snakeCell bytes).chain.length = max 1 ((bytes.length + 126) / 127) := by
  simpa using congrArg List.length (snakeCell_chain_bits bytes)

/-- Every cell of a snake continues, if at all, only into its first reference. -/
theorem snakeCell_chain_refs (bytes : List UInt8) :
    ∀ c ∈ (snakeCell bytes).chain, c.refs.length ≤ 1 := by
  induction bytes using snakeCell.induct with
  | case1 bytes h =>
    rw [maxCellBits_bytes] at h
    intro c hc
    rw [chain_snakeCell_short h, List.mem_singleton] at hc
    rw [hc, snakeCell_short (by rwa [maxCellBits_bytes])]
    simp
  | case2 bytes h ih =>
    rw [maxCellBits_bytes] at h ih
    intro c hc
    rw [chain_snakeCell_long h, List.mem_cons] at hc
    rcases hc with rfl | hc
    · rw [snakeCell_long (by rwa [maxCellBits_bytes])]
      simp
    · exact ih c hc

/-! ## Reading a snake back -/

/-- A snake is the first run of its bytes, and the chain of the rest when there is a rest. -/
theorem snakeCell_eq (bytes : List UInt8) :
    snakeCell bytes = ⟨bitsOfBytes (bytes.take 127),
      if 127 < bytes.length then [snakeCell (bytes.drop 127)] else []⟩ := by
  by_cases h : bytes.length ≤ 127
  · rw [snakeCell_short (by rwa [maxCellBits_bytes]), List.take_of_length_le h,
      if_neg (by omega)]
  · rw [snakeCell_long (by rwa [maxCellBits_bytes]), if_pos (by omega)]
    rfl

theorem reads_snakeCell (bytes : List UInt8) :
    Slice.Reads Slice.loadSnakeBytes (snakeCell bytes) fun v _ => v = bytes := by
  rw [snakeCell_eq]
  exact Slice.Reads.mono Slice.reads_loadSnakeBytes fun v _ hv => by rw [hv, snakeTail_text]

namespace Builder

/-- What `storeSnakeBytes` leaves unread past the builder it was given: the bytes that fit, and
the chain of the rest in a reference. -/
theorem storeSnakeBytes_unread {b : Builder} (h : b.refs.length < maxCellRefs)
    (bytes : List UInt8) :
    ∃ b', (storeSnakeBytes bytes : Build).run b = .ok ((), b') ∧
      (⟨b'.build, b.bits.length, b.refs.length⟩ : Slice).unread =
        ⟨bitsOfBytes (bytes.take (snakeFit b bytes)), snakeRest b bytes⟩ := by
  refine ⟨_, storeSnakeBytes_run h bytes, ?_⟩
  simp [Slice.unread, build]

end Builder

/-- Snake byte strings read back as they were written. A snake of `n` bytes is a chain of
`⌈n / 127⌉` cells, one when it is empty; its cells hold the runs of 127 bytes in order, and each
continues only into its first reference; and reading it from its start gives the bytes back.
Stored as a snake into a builder with a reference free, the bytes are written, and a slice of
the cell built that stands where the store began reads them back. -/
theorem snake_bytes_roundTrip :
    (∀ bytes : List UInt8,
      (snakeCell bytes).chain.length = max 1 ((bytes.length + 126) / 127) ∧
      (snakeCell bytes).chain.map Cell.bits =
        (List.range (max 1 ((bytes.length + 126) / 127))).map (fun i =>
          bitsOfBytes ((bytes.drop (127 * i)).take 127)) ∧
      (∀ c ∈ (snakeCell bytes).chain, c.refs.length ≤ 1) ∧
      ∃ s, Slice.loadSnakeBytes.run (snakeCell bytes).slice = .ok (bytes, s)) ∧
    ∀ (b : Builder) (bytes : List UInt8), b.refs.length < maxCellRefs →
      ∃ b', (Builder.storeSnakeBytes bytes : Build).run b = .ok ((), b') ∧
        ∃ s, Slice.loadSnakeBytes.run ⟨b'.build, b.bits.length, b.refs.length⟩ =
          .ok (bytes, s) := by
  refine ⟨fun bytes => ⟨snakeCell_chain_length bytes, snakeCell_chain_bits bytes,
    snakeCell_chain_refs bytes, ?_⟩, fun b bytes h => ?_⟩
  · obtain ⟨v, s, hrun, rfl⟩ := (reads_snakeCell bytes).run_slice
    exact ⟨s, hrun⟩
  · obtain ⟨b', hrun, hunread⟩ := Builder.storeSnakeBytes_unread h bytes
    obtain ⟨v, s, hread, hv⟩ := Slice.reads_loadSnakeBytes _ hunread
    refine ⟨b', hrun, s, ?_⟩
    rw [hread, hv, Builder.snakeRest, snakeTail_text]

/-- The test's string of 400 bytes, stored after a 32-bit header. -/
theorem snake_bytes_after_header :
    let b : Builder := ⟨bitsOfNat 32 7, []⟩
    let bytes : List UInt8 := (List.range 400).map fun i => (i % 251).toUInt8
    b.refs.length < maxCellRefs ∧
      ∃ b', (Builder.storeSnakeBytes bytes : Build).run b = .ok ((), b') ∧
        ∃ s, Slice.loadSnakeBytes.run ⟨b'.build, b.bits.length, b.refs.length⟩ =
          .ok (bytes, s) :=
  ⟨by decide, snake_bytes_roundTrip.2 _ _ (by decide)⟩

end PoolTreasury
