import Mathlib.Tactic.Ring
import PoolTreasury.Cell.Boc

/-! # Bits, numbers and bytes

A cell's data is a list of bits, most significant first. Numbers are written into it with
`bitsOfNat` and read back with `natOfBits`; whole bytes are spelled out with `bitsOfBytes`
and packed again with `bytesOfBits`, which pads a partial last byte with zeros. The lemmas
here say that each reading undoes its writing, and what the padding is, so that the codec
proofs never evaluate a conversion.
-/

namespace PoolTreasury

/-! ## Numbers as bits -/

@[simp] theorem bitsOfNat_length (w v : Nat) : (bitsOfNat w v).length = w := by
  induction w with
  | zero => rfl
  | succ w ih => simp [bitsOfNat, ih]

theorem natOfBits_foldl (bits : List Bool) (acc : Nat) :
    bits.foldl (fun acc b => 2 * acc + if b then 1 else 0) acc =
      acc * 2 ^ bits.length + natOfBits bits := by
  induction bits generalizing acc with
  | nil => simp [natOfBits]
  | cons b bs ih =>
    have hb : natOfBits (b :: bs) =
        bs.foldl (fun acc b => 2 * acc + if b then 1 else 0) (2 * 0 + if b then 1 else 0) := rfl
    rw [List.foldl_cons, ih, hb, ih, List.length_cons]
    ring

@[simp] theorem natOfBits_nil : natOfBits [] = 0 := rfl

theorem natOfBits_append (xs ys : List Bool) :
    natOfBits (xs ++ ys) = natOfBits xs * 2 ^ ys.length + natOfBits ys := by
  unfold natOfBits
  rw [List.foldl_append, natOfBits_foldl]
  rfl

theorem natOfBits_cons (b : Bool) (bs : List Bool) :
    natOfBits (b :: bs) = (if b then 1 else 0) * 2 ^ bs.length + natOfBits bs := by
  rw [show b :: bs = [b] ++ bs from rfl, natOfBits_append]
  cases b <;> rfl

theorem natOfBits_lt (bits : List Bool) : natOfBits bits < 2 ^ bits.length := by
  induction bits with
  | nil => simp
  | cons b bs ih =>
    rw [natOfBits_cons, List.length_cons, Nat.pow_succ]
    cases b <;> simp <;> omega

theorem natOfBits_replicate_false (p : Nat) : natOfBits (List.replicate p false) = 0 := by
  induction p with
  | zero => rfl
  | succ p ih =>
    rw [List.replicate_succ', natOfBits_append, ih]
    rfl

/-- Reading `w` written bits gives the number modulo `2 ^ w`. -/
theorem natOfBits_bitsOfNat (w v : Nat) : natOfBits (bitsOfNat w v) = v % 2 ^ w := by
  induction w with
  | zero => simp [bitsOfNat, Nat.mod_one]
  | succ w ih =>
    rw [bitsOfNat, natOfBits_cons, bitsOfNat_length, ih, Nat.mod_pow_succ]
    rcases Nat.mod_two_eq_zero_or_one (v / 2 ^ w) with h | h <;> simp [h]; ring

/-- The bits written for `v` depend only on `v` modulo `2 ^ w`. -/
theorem bitsOfNat_add_mul (w a v : Nat) : bitsOfNat w (a * 2 ^ w + v) = bitsOfNat w v := by
  induction w generalizing a with
  | zero => rfl
  | succ w ih =>
    have hbit : (a * 2 ^ (w + 1) + v) / 2 ^ w % 2 = v / 2 ^ w % 2 := by
      rw [Nat.pow_succ, mul_comm (2 ^ w) 2, ← mul_assoc, Nat.add_comm,
        Nat.add_mul_div_right _ _ (Nat.two_pow_pos w)]
      omega
    rw [bitsOfNat, bitsOfNat, hbit, Nat.pow_succ, mul_comm (2 ^ w) 2, ← mul_assoc, ih]

/-- Writing the number some bits spell, in as many bits, gives the bits back. -/
theorem bitsOfNat_natOfBits (bits : List Bool) :
    bitsOfNat bits.length (natOfBits bits) = bits := by
  induction bits with
  | nil => rfl
  | cons b bs ih =>
    rw [List.length_cons, bitsOfNat, natOfBits_cons, bitsOfNat_add_mul, ih]
    have hdiv : ((if b then 1 else 0) * 2 ^ bs.length + natOfBits bs) / 2 ^ bs.length =
        if b then 1 else 0 := by
      rw [Nat.add_comm, Nat.add_mul_div_right _ _ (Nat.two_pow_pos _),
        Nat.div_eq_of_lt (natOfBits_lt bs)]
      simp
    rw [hdiv]
    cases b <;> rfl

theorem bitsOfNat_zero (w : Nat) : bitsOfNat w 0 = List.replicate w false := by
  induction w with
  | zero => rfl
  | succ w ih => simp [bitsOfNat, ih, List.replicate_succ]

/-! ## Bytes as bits -/

@[simp] theorem bitsOfBytes_nil : bitsOfBytes [] = [] := rfl

theorem bitsOfBytes_cons (b : UInt8) (bs : List UInt8) :
    bitsOfBytes (b :: bs) = bitsOfNat 8 b.toNat ++ bitsOfBytes bs := rfl

theorem bitsOfBytes_append (xs ys : List UInt8) :
    bitsOfBytes (xs ++ ys) = bitsOfBytes xs ++ bitsOfBytes ys := List.flatMap_append

@[simp] theorem bitsOfBytes_length (bytes : List UInt8) :
    (bitsOfBytes bytes).length = 8 * bytes.length := by
  induction bytes with
  | nil => rfl
  | cons b bs ih => rw [bitsOfBytes_cons, List.length_append, ih]; simp; ring

/-- Eight bits packed into a byte read back as the same eight bits. -/
theorem bitsOfNat_byte {chunk : List Bool} (h : chunk.length = 8) :
    bitsOfNat 8 (natOfBits chunk).toUInt8.toNat = chunk := by
  have hlt : natOfBits chunk < 2 ^ 8 := h ▸ natOfBits_lt chunk
  rw [Nat.toUInt8, UInt8.toNat_ofNat', Nat.mod_eq_of_lt hlt, ← h, bitsOfNat_natOfBits]

@[simp] theorem bytesOfBits_nil : bytesOfBits [] = [] := by
  rw [bytesOfBits.eq_def]; rfl

/-- Packing bits into bytes and reading them back gives the bits and the zero padding. -/
theorem bitsOfBytes_bytesOfBits (bits : List Bool) :
    bitsOfBytes (bytesOfBits bits) = bits ++ List.replicate ((8 - bits.length % 8) % 8) false := by
  induction bits using bytesOfBits.induct with
  | case1 bits _ hempty => simp [List.isEmpty_iff.mp hempty]
  | case2 bits hle hne =>
    have hpos : 0 < bits.length := List.length_pos_iff.mpr (by simpa using hne)
    rw [bytesOfBits.eq_def, dif_pos hle, if_neg hne, bitsOfBytes_cons, bitsOfBytes_nil,
      List.append_nil, bitsOfNat_byte (by simp; omega)]
    congr 2
    rcases Nat.lt_or_ge bits.length 8 with h | h
    · rw [Nat.mod_eq_of_lt h, Nat.mod_eq_of_lt (by omega)]
    · have : bits.length = 8 := by omega
      simp [this]
  | case3 bits hgt ih =>
    rw [bytesOfBits.eq_def, dif_neg hgt, bitsOfBytes_cons, ih, bitsOfNat_byte (by simp; omega),
      ← List.append_assoc, List.take_append_drop, List.length_drop]
    congr 3
    omega

@[simp] theorem bytesOfBits_length (bits : List Bool) :
    (bytesOfBits bits).length = (bits.length + 7) / 8 := by
  induction bits using bytesOfBits.induct with
  | case1 bits _ hempty => simp [List.isEmpty_iff.mp hempty]
  | case2 bits hle hne =>
    have hpos : 0 < bits.length := List.length_pos_iff.mpr (by simpa using hne)
    rw [bytesOfBits.eq_def, dif_pos hle, if_neg hne, List.length_singleton]
    omega
  | case3 bits hgt ih =>
    rw [bytesOfBits.eq_def, dif_neg hgt, List.length_cons, ih, List.length_drop]
    omega

/-- Bytes spelled out as bits pack back into the same bytes. -/
theorem bytesOfBits_bitsOfBytes (bytes : List UInt8) : bytesOfBits (bitsOfBytes bytes) = bytes := by
  induction bytes with
  | nil => simp
  | cons b bs ih =>
    have hbyte : (natOfBits (bitsOfNat 8 b.toNat)).toUInt8 = b := by
      rw [natOfBits_bitsOfNat, Nat.mod_eq_of_lt b.toNat_lt]
      exact UInt8.ofNat_toNat
    rw [bitsOfBytes_cons, bytesOfBits.eq_def]
    cases bs with
    | nil => simp [hbyte, ← List.length_pos_iff]
    | cons c cs =>
      rw [dif_neg (by simp), List.take_left' (by simp), List.drop_left' (by simp), ih, hbyte]

/-- A byte whose bits end in a one and then `p` zeros has `p` trailing zeros. -/
theorem trailingZeros_of_bits {b : Nat} (hb : b < 2 ^ 8) {xs : List Bool} {p : Nat}
    (h : bitsOfNat 8 b = xs ++ true :: List.replicate p false) : trailingZeros b = p := by
  have hlen : xs.length + p = 7 := by
    have := congrArg List.length h
    simp at this
    omega
  -- the byte is an odd number shifted left by `p`
  have hb' : b = (2 * natOfBits xs + 1) * 2 ^ p := by
    have := natOfBits_bitsOfNat 8 b
    rw [h, Nat.mod_eq_of_lt hb, show xs ++ true :: List.replicate p false =
      (xs ++ [true]) ++ List.replicate p false by simp, natOfBits_append, natOfBits_append,
      natOfBits_replicate_false, show natOfBits [true] = 1 from rfl] at this
    simp at this
    rw [← this]
    ring
  have hfind : (List.range 8).find? (fun i => decide (b / 2 ^ i % 2 = 1)) = some p := by
    rw [List.find?_range_eq_some]
    refine ⟨?_, by simp; omega, ?_⟩
    · simp [hb', Nat.mul_div_cancel _ (Nat.two_pow_pos p)]
    · intro j hj
      have : b / 2 ^ j = (2 * natOfBits xs + 1) * 2 ^ (p - j) := by
        rw [hb', show p = (p - j) + j by omega, Nat.pow_add, ← mul_assoc,
          Nat.mul_div_cancel _ (Nat.two_pow_pos j)]
        congr 2
        omega
      have hpos : p - j ≠ 0 := by omega
      simp [this, Nat.mul_mod, Nat.pow_mod, hpos]
  unfold trailingZeros
  rw [hfind]
  rfl

end PoolTreasury
