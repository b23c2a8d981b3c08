import PoolTreasury.Proofs.Encoding.Base64
import PoolTreasury.Cell.Address
import PoolTreasury.Treasury.Commands

/-! # The two forms of an address

An address has two texts. The raw one is the workchain in decimal, a colon, and the hash in
hexadecimal; it reads back as the address (`MsgAddress.parse_render`). The friendly one is base64
of 36 bytes: a flags byte, the workchain as a byte, the hash, and two checksum bytes. In either
alphabet it reads back as the address when the checksum is the CRC-16 of the other 34 bytes, and it
is refused as a bad checksum otherwise (`MsgAddress.parse_friendly`). The reader tries the URL-safe
alphabet first. Standard text that the URL-safe reader accepts has no `+` and no `/`, so it reads
the same bytes either way.

Neither text has white space, and no colon stands in either but the one of the raw form: the
reader trims white space and splits at colons (`PlainChar`). `sameAddress` compares the addresses two texts read
as, so it tells texts that both read apart exactly by the address they name (`address_forms_agree`).
-/

namespace PoolTreasury

open Base64Alphabet

/-! ## Characters of address texts -/

/-- A character that trimming keeps and that does not split an address text. -/
def PlainChar (c : Char) : Prop := isWhiteSpace c = false ∧ c ≠ ':'

instance : DecidablePred PlainChar := fun _ => inferInstanceAs (Decidable (_ ∧ _))

theorem plainChar_of_isDigit {c : Char} (h : c.isDigit) : PlainChar c := by
  simp only [Char.isDigit, Bool.and_eq_true, decide_eq_true_eq] at h
  have hlo : 48 ≤ c.toNat := UInt32.le_iff_toNat_le.mp h.1
  have hhi : c.toNat ≤ 57 := UInt32.le_iff_toNat_le.mp h.2
  constructor
  · simp [isWhiteSpace]
    omega
  · rintro rfl
    exact absurd hhi (by decide)

theorem plainChar_nibbleChar : ∀ n, n < 16 → PlainChar (nibbleChar n) := by decide

theorem plainChar_symbol {a : Base64Alphabet} (ha : a = urlSafe ∨ a = standard) :
    ∀ v, v < 64 → PlainChar (a.symbol v) := by
  rcases ha with rfl | rfl <;> decide

/-! ## The raw form -/

section DecimalText

/-- The running value of `digitsValue?` over digits is the number they write. -/
theorem foldl_digits {cs : List Char} (h : ∀ c ∈ cs, c.isDigit) (n : Nat) :
    cs.foldl (fun acc c => acc.bind fun n =>
      if c.isDigit then some (10 * n + (c.toNat - 48)) else none) (some n) =
      some (Nat.ofDigitChars 10 cs n) := by
  induction cs generalizing n with
  | nil => rfl
  | cons c cs ih =>
    rw [List.foldl_cons, Option.bind_some, if_pos (h c List.mem_cons_self), Nat.ofDigitChars_cons]
    exact ih (fun d hd => h d (List.mem_cons_of_mem c hd)) _

theorem digitsValue?_toDigits (n : Nat) : digitsValue? (Nat.toDigits 10 n) = some n := by
  have hdigits : ∀ c ∈ Nat.toDigits 10 n, c.isDigit := fun c hc =>
    Nat.isDigit_of_mem_toDigits (by decide) (by decide) hc
  rw [digitsValue?, if_neg (by simp [Nat.toDigits_ne_nil]), foldl_digits hdigits,
    Nat.ofDigitChars_ten_toDigits]

/-- Decimal text of an integer: its digits, after a minus sign when it is negative. -/
theorem toList_toString_int (i : Int) : (toString i).toList =
    (if i < 0 then ['-'] else []) ++ Nat.toDigits 10 i.natAbs := by
  cases i with
  | ofNat m => exact Nat.toList_repr
  | negSucc m =>
    show ("-" ++ Nat.repr (m + 1)).toList = _
    rw [String.toList_append, Nat.toList_repr, if_pos (Int.negSucc_lt_zero m)]
    rfl

theorem plainChar_toString_int (i : Int) : ∀ c ∈ (toString i).toList, PlainChar c := by
  intro c hc
  rw [toList_toString_int] at hc
  rcases List.mem_append.mp hc with hsign | hdigit
  · split at hsign
    · rw [List.mem_singleton.mp hsign]
      decide
    · cases hsign
  · exact plainChar_of_isDigit (Nat.isDigit_of_mem_toDigits (by decide) (by decide) hdigit)

/-- A signed byte written in decimal reads back as itself. -/
theorem parseInt8?_toString (w : Int8) : parseInt8? (toString w.toInt) = some w := by
  have hlo : -128 ≤ w.toInt := w.le_toInt
  have hhi : w.toInt ≤ 127 := w.toInt_le
  cases hw : w.toInt with
  | ofNat m =>
    rw [hw] at hhi
    have hm : m ≤ 127 := by simp only [Int.ofNat_eq_natCast] at hhi; omega
    -- the digits start with a digit, not a sign
    obtain ⟨c, cs, hcs⟩ := List.exists_cons_of_ne_nil (@Nat.toDigits_ne_nil m 10)
    have hc : c.isDigit :=
      Nat.isDigit_of_mem_toDigits (by decide) (by decide) (hcs ▸ List.mem_cons_self)
    have hminus : c ≠ '-' := by rintro rfl; exact absurd hc (by decide)
    have hplus : c ≠ '+' := by rintro rfl; exact absurd hc (by decide)
    have hrepr : (toString (Int.ofNat m)).toList = c :: cs := by
      rw [← hcs]
      exact Nat.toList_repr
    have hdigits : digitsValue? (c :: cs) = some m := hcs ▸ digitsValue?_toDigits m
    simp only [parseInt8?, hrepr]
    simp [hminus, hplus, hdigits, hm]
    rw [← Int8.ofInt_toInt w, hw, Int.ofNat_eq_natCast]
  | negSucc m =>
    rw [hw] at hlo
    have hm : m + 1 ≤ 128 := by rw [Int.negSucc_eq] at hlo; omega
    have hrepr : (toString (Int.negSucc m)).toList = '-' :: Nat.toDigits 10 (m + 1) := by
      rw [toList_toString_int, if_pos (Int.negSucc_lt_zero m)]
      rfl
    simp only [parseInt8?, hrepr, digitsValue?_toDigits, if_true, if_pos hm]
    rw [← Int8.ofInt_toInt w, hw]
    rfl

end DecimalText

section Hex

theorem nibbleOf?_nibbleChar : ∀ n, n < 16 → nibbleOf? (nibbleChar n) = some n := by decide

/-- Hexadecimal text reads back as the bytes it was written from. -/
theorem bytesOfHex?_hexOfBytes (bytes : List UInt8) :
    bytesOfHex? (hexOfBytes bytes) = some bytes := by
  rw [bytesOfHex?, hexOfBytes, String.toList_ofList]
  induction bytes with
  | nil => rfl
  | cons b bytes ih =>
    have hhi : b.toNat / 16 < 16 := by have := b.toNat_lt; omega
    have hlo : b.toNat % 16 < 16 := Nat.mod_lt _ (by decide)
    rw [List.flatMap_cons, List.cons_append, List.cons_append, List.nil_append]
    simp only [bytesOfHexChars, nibbleOf?_nibbleChar _ hhi, nibbleOf?_nibbleChar _ hlo, ih]
    show some ((b.toNat / 16 * 16 + b.toNat % 16).toUInt8 :: bytes) = some (b :: bytes)
    rw [Nat.div_add_mod', Nat.toUInt8, UInt8.ofNat_toNat]

theorem plainChar_hexOfBytes (bytes : List UInt8) :
    ∀ c ∈ (hexOfBytes bytes).toList, PlainChar c := by
  intro c hc
  simp only [hexOfBytes, String.toList_ofList, List.mem_flatMap, List.mem_cons,
    List.not_mem_nil, or_false] at hc
  obtain ⟨b, -, rfl | rfl⟩ := hc
  · exact plainChar_nibbleChar _ (by have := b.toNat_lt; omega)
  · exact plainChar_nibbleChar _ (Nat.mod_lt _ (by decide))

end Hex

namespace MsgAddress

/-! ## Reading a text -/

/-- Pieces of plain characters joined by colons split back at the colons. -/
theorem splitOn_colon_intercalate (ls : List (List Char)) (hne : ls ≠ [])
    (h : ∀ l ∈ ls, ∀ c ∈ l, PlainChar c) : ([':'].intercalate ls).splitOn ':' = ls :=
  @List.splitOn_intercalate _ ls _ _ ':' (fun l hl hc => (h l hl ':' hc).2 rfl) hne

/-- Text of plain characters with no colon is read in the friendly form. -/
theorem parse_ofList_plain {cs : List Char} (h : ∀ c ∈ cs, PlainChar c) :
    parse (String.ofList cs) = ofFriendly? (String.ofList cs) := by
  have hsplit : cs.splitOn ':' = [cs] := by
    simpa using splitOn_colon_intercalate [cs] (by simp) (by simpa using h)
  unfold parse
  simp only [trimWhite_ofList fun c hc => (h c hc).1, String.toList_ofList, hsplit]

/-- Raw text: a workchain and hexadecimal digits around one colon, each read on its own. -/
theorem parse_ofList_raw {wc hex : List Char} (hwc : ∀ c ∈ wc, PlainChar c)
    (hhex : ∀ c ∈ hex, PlainChar c) {w : Int8} {hash : List UInt8}
    (hw : parseInt8? (String.ofList wc) = some w) (hh : bytesOfHex? (String.ofList hex) = some hash)
    (hlen : hash.length = 32) :
    parse (String.ofList (wc ++ ':' :: hex)) = .ok ⟨w, hash⟩ := by
  have hwhite : ∀ c ∈ wc ++ ':' :: hex, isWhiteSpace c = false := by
    intro c hc
    rcases List.mem_append.mp hc with hc | hc
    · exact (hwc c hc).1
    · rcases List.mem_cons.mp hc with rfl | hc
      · decide
      · exact (hhex c hc).1
  have hsplit : (wc ++ ':' :: hex).splitOn ':' = [wc, hex] := by
    simpa using splitOn_colon_intercalate [wc, hex] (by simp) (by simpa using ⟨hwc, hhex⟩)
  unfold parse
  have hone : ":".intercalate ([hex].map String.ofList) = String.ofList hex := rfl
  simp only [trimWhite_ofList hwhite, String.toList_ofList, hsplit, hone, hw, hh]
  exact if_pos hlen

/-- The raw text of an address with a 32-byte hash reads back as the address. -/
theorem parse_render {a : MsgAddress} (h : a.hash.length = 32) : parse a.render = .ok a := by
  have htext : a.render = String.ofList ((toString a.workchain.toInt).toList ++
      ':' :: (hexOfBytes a.hash).toList) := by
    apply String.toList_inj.mp
    simp [render]
  rw [htext, parse_ofList_raw (plainChar_toString_int _) (plainChar_hexOfBytes _)
    (by rw [String.ofList_toList]; exact parseInt8?_toString _)
    (by rw [String.ofList_toList]; exact bytesOfHex?_hexOfBytes _) h]

/-! ## The friendly form -/

/-- Base64 text, in either alphabet, is read in the friendly form. -/
theorem parse_base64Encode {alph : Base64Alphabet} (halph : alph = urlSafe ∨ alph = standard)
    (bytes : List UInt8) :
    parse (base64Encode alph bytes) = ofFriendly? (base64Encode alph bytes) :=
  parse_ofList_plain fun c hc => by
    rcases mem_encodeChars hc with ⟨v, hv, rfl⟩ | rfl
    · exact plainChar_symbol halph v hv
    · decide

/-- Base64 text of bytes, in either alphabet, reads back as those bytes: URL-safe text directly,
and standard text either because the URL-safe reading fails or because it reads the same. -/
theorem friendlyBytes?_base64Encode {alph : Base64Alphabet}
    (halph : alph = urlSafe ∨ alph = standard) (bytes : List UInt8) :
    friendlyBytes? (base64Encode alph bytes) = .ok bytes := by
  have hreadable : alph.Readable := by
    rcases halph with rfl | rfl
    · exact urlSafe_readable
    · exact standard_readable
  have hraw : (base64Encode alph bytes).toUTF8.toList = (encodeChars alph bytes).map Char.toUInt8 :=
    toUTF8_ofList_ascii fun c hc => (hreadable.encodeChars_ascii hc).1
  unfold friendlyBytes?
  simp only [hraw]
  rcases halph with rfl | rfl
  · rw [urlSafe_readable.base64Decode_encodeChars]
  · cases hurl : base64Decode urlSafe ((encodeChars standard bytes).map Char.toUInt8) with
    | ok b => rw [base64Decode_urlSafe_of_standard hurl]
    | error e => rw [standard_readable.base64Decode_encodeChars]

/-- What the friendly reader makes of the 36 bytes it read: the address they hold when the last
two are the checksum of the others, a bad checksum otherwise. -/
theorem ofFriendly?_of_bytes {text : String} {bytes : List UInt8}
    (h : friendlyBytes? text = .ok bytes) (hlen : bytes.length = 36) :
    ofFriendly? text = if bytes.drop 34 = crcBytes (bytes.take 34) then
        .ok ⟨(bytes.getD 1 0).toInt8, (bytes.drop 2).take 32⟩
      else .error (.invalidAddress (text ++ " (bad checksum)")) := by
  unfold ofFriendly?
  rw [h]
  simp only [bind, Except.bind, hlen, ne_eq, not_true_eq_false, if_false]
  by_cases hcheck : bytes.drop 34 = crcBytes (bytes.take 34)
  · rw [if_neg (not_not_intro hcheck), if_pos hcheck]
    rfl
  · rw [if_pos hcheck, if_neg hcheck]
    rfl

/-- The first 34 bytes of an address's friendly form: flags, the workchain as a byte, the hash. -/
def friendlyBody (flags : UInt8) (a : MsgAddress) : List UInt8 :=
  flags :: a.workchain.toUInt8 :: a.hash

/-- The friendly form reads back the workchain and the hash of its body. -/
theorem ofBody_friendlyBody (flags : UInt8) {a : MsgAddress} (ha : a.hash.length = 32)
    (check : List UInt8) :
    (⟨((a.friendlyBody flags ++ check).getD 1 0).toInt8,
      ((a.friendlyBody flags ++ check).drop 2).take 32⟩ : MsgAddress) = a := by
  simp [friendlyBody, List.take_left' ha]

/-- Friendly text of an address, in either alphabet and with any two checksum bytes: the address
when they are the checksum of the body, a bad checksum otherwise. -/
theorem parse_friendly {alph : Base64Alphabet} (halph : alph = urlSafe ∨ alph = standard)
    (flags : UInt8) {a : MsgAddress} (ha : a.hash.length = 32) {check : List UInt8}
    (hcheck : check.length = 2) :
    parse (base64Encode alph (a.friendlyBody flags ++ check)) =
      if check = crcBytes (a.friendlyBody flags) then .ok a
      else .error (.invalidAddress
        (base64Encode alph (a.friendlyBody flags ++ check) ++ " (bad checksum)")) := by
  have hbody : (a.friendlyBody flags).length = 34 := by simp [friendlyBody, ha]
  rw [parse_base64Encode halph, ofFriendly?_of_bytes (friendlyBytes?_base64Encode halph _)
    (by simp [hbody, hcheck]), List.drop_left' hbody, List.take_left' hbody,
    ofBody_friendlyBody flags ha check]

end MsgAddress

/-- Two texts that both read as addresses are the same address exactly when they read the same. -/
theorem sameAddress_iff {x y : String} {a b : MsgAddress} (hx : MsgAddress.parse x = .ok a)
    (hy : MsgAddress.parse y = .ok b) : sameAddress x y = true ↔ a = b := by
  simp [sameAddress, hx, hy]

/-- The raw text of every address reads back as it. So does its friendly text, in either alphabet
and with any flags, when the checksum is the CRC-16 of the first 34 bytes; any other checksum is
refused. Of two texts that both read as addresses, `sameAddress` holds exactly when the addresses
are the same. -/
theorem address_forms_agree :
    (∀ a : MsgAddress, a.hash.length = 32 → MsgAddress.parse a.render = .ok a) ∧
    (∀ (alph : Base64Alphabet) (flags : UInt8) (a : MsgAddress) (check : List UInt8),
      alph = urlSafe ∨ alph = standard → a.hash.length = 32 → check.length = 2 →
      MsgAddress.parse (base64Encode alph (a.friendlyBody flags ++ check)) =
        if check = crcBytes (a.friendlyBody flags) then .ok a
        else .error (.invalidAddress
          (base64Encode alph (a.friendlyBody flags ++ check) ++ " (bad checksum)"))) ∧
    (∀ x y a b, MsgAddress.parse x = .ok a → MsgAddress.parse y = .ok b →
      (sameAddress x y = true ↔ a = b)) :=
  ⟨fun _ h => MsgAddress.parse_render h,
    fun _ flags _ _ halph ha hcheck => MsgAddress.parse_friendly halph flags ha hcheck,
    fun _ _ _ _ hx hy => sameAddress_iff hx hy⟩

/-- Workchain -1 and a hash of `ab` bytes: the raw text and the standard friendly text both read
as the address and are the same address, and friendly text with a zero checksum is refused. -/
theorem sameAddress_raw_and_friendly :
    let a : MsgAddress := ⟨-1, List.replicate 32 0xab⟩
    let friendly := base64Encode standard (a.friendlyBody 0x11 ++ crcBytes (a.friendlyBody 0x11))
    let zeroed := base64Encode urlSafe (a.friendlyBody 0x11 ++ [0, 0])
    MsgAddress.parse a.render = .ok a ∧ MsgAddress.parse friendly = .ok a ∧
      sameAddress a.render friendly = true ∧
      MsgAddress.parse zeroed = .error (.invalidAddress (zeroed ++ " (bad checksum)")) := by
  intro a friendly zeroed
  have hlen : a.hash.length = 32 := List.length_replicate
  have hraw : MsgAddress.parse a.render = .ok a := address_forms_agree.1 a hlen
  have hfriendly : MsgAddress.parse friendly = .ok a := by
    rw [address_forms_agree.2.1 standard 0x11 a _ (.inr rfl) hlen rfl, if_pos rfl]
  have hzeroed :
      MsgAddress.parse zeroed = .error (.invalidAddress (zeroed ++ " (bad checksum)")) := by
    rw [address_forms_agree.2.1 urlSafe 0x11 a [0, 0] (.inl rfl) hlen rfl,
      if_neg (by decide +kernel)]
  exact ⟨hraw, hfriendly, (address_forms_agree.2.2 _ _ _ _ hraw hfriendly).mpr rfl, hzeroed⟩

end PoolTreasury
