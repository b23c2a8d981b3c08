import PoolTreasury.Encoding.Base64
import PoolTreasury.Encoding.Text

/-! # Base64 round trip

The encoder cuts the bytes into groups of three, each giving four symbols, and pads a last
group of one or two bytes. The strict decoder reads every group but the last as plain
symbols, and the last one with its padding and its unused low bits. Both are matched here
group by group: the bytes are a list of full groups followed by a last group of one to three
bytes (`exists_groups`), the full groups decode as plain symbols
(`symbolValues_symbols`, `bytesOfGroups_groupSextets`), and the last group passes every
check of the decoder (`scanLastGroup_encodeGroup`). The text the encoder writes is plain ASCII
with no white space, so trimming it and taking its UTF-8 bytes gives back the symbol bytes.

All of this holds for any alphabet whose symbols read back as their values (`Readable`): the
standard one and the URL-safe one both are. The two differ only in the symbols for 62 and 63
(`encodeChars_urlSafe`). Text that a decoder accepts holds only its symbols and the padding
(`base64Decode_ok_valid`), so the URL-safe decoder, given standard text, either refuses it or
reads the same bytes (`base64Decode_urlSafe_of_standard`).
-/

namespace PoolTreasury

open Base64Alphabet

/-! ## Strings of ASCII characters -/

theorem byteArray_toList_loop (bs : ByteArray) (i : Nat) (r : List UInt8) :
    ByteArray.toList.loop bs i r = r.reverse ++ bs.data.toList.drop i := by
  induction i, r using ByteArray.toList.loop.induct bs with
  | case1 i r hlt ih =>
    rw [ByteArray.toList.loop, if_pos hlt, ih]
    have hi : i < bs.data.toList.length := by simpa using hlt
    have hget : bs.get! i = bs.data.toList[i] := by
      simp only [ByteArray.get!, Array.getElem_toList]
      exact getElem!_pos bs.data i (by simpa using hlt)
    rw [List.drop_eq_getElem_cons hi, hget]
    simp
  | case2 i r hge =>
    rw [ByteArray.toList.loop, if_neg hge]
    have : bs.data.toList.length ≤ i := by simpa using hge
    simp [List.drop_eq_nil_of_le this]

theorem byteArray_toList (bs : ByteArray) : bs.toList = bs.data.toList := by
  rw [ByteArray.toList, byteArray_toList_loop]
  simp

/-- The UTF-8 bytes of a string of ASCII characters are the characters' codes. -/
theorem toUTF8_ofList_ascii {cs : List Char} (h : ∀ c ∈ cs, c.toNat < 128) :
    (String.ofList cs).toUTF8.toList = cs.map Char.toUInt8 := by
  rw [String.toUTF8_eq_toByteArray, String.toByteArray_ofList, List.utf8Encode,
    byteArray_toList, List.data_toByteArray, List.toList_toArray]
  induction cs with
  | nil => rfl
  | cons c cs ih =>
    have hc : c.utf8Size = 1 := by
      rw [Char.utf8Size_eq_one_iff, UInt32.le_iff_toNat_le]
      have : c.toNat < 128 := h c (by simp)
      exact Nat.le_of_lt_succ this
    rw [List.flatMap_cons, String.utf8EncodeChar_eq_singleton hc, List.map_cons,
      ih (fun d hd => h d (List.mem_cons_of_mem _ hd))]
    rfl

/-- Text with no white space at either end is left as it is by trimming. -/
theorem trimWhite_ofList {cs : List Char} (h : ∀ c ∈ cs, isWhiteSpace c = false) :
    trimWhite (String.ofList cs) = String.ofList cs := by
  have hdrop : ∀ l : List Char, (∀ c ∈ l, isWhiteSpace c = false) → l.dropWhile isWhiteSpace = l
    | [], _ => rfl
    | c :: _, hl => by simp [hl c (by simp)]
  unfold trimWhite
  rw [String.toList_ofList, hdrop cs h, hdrop cs.reverse (by simpa using h), List.reverse_reverse]

/-! ## Alphabets -/

/-- An alphabet a decoder can read back: each of its 64 symbols is an ASCII character that is not
white space and whose byte reads back as its value, and the padding byte is no symbol. -/
structure Base64Alphabet.Readable (a : Base64Alphabet) : Prop where
  symbols : ∀ v, v < 64 → a.value? (a.symbol v).toUInt8 = some v ∧
    (a.symbol v).toNat < 128 ∧ isWhiteSpace (a.symbol v) = false
  pad : a.value? padByte = none

theorem standard_readable : standard.Readable := ⟨by decide, by decide⟩

theorem urlSafe_readable : urlSafe.Readable := ⟨by decide, by decide⟩

theorem pad_char : '='.toUInt8 = padByte ∧ '='.toNat < 128 ∧ isWhiteSpace '=' = false := by
  decide

section Readable

variable {a : Base64Alphabet}

/-- No symbol byte is the padding byte. -/
theorem Base64Alphabet.Readable.symbol_ne_padByte (ha : a.Readable) {v : Nat} (hv : v < 64) :
    (a.symbol v).toUInt8 ≠ padByte := by
  intro h
  have hval := (ha.symbols v hv).1
  rw [h, ha.pad] at hval
  cases hval

end Readable

/-- Every character the encoder writes is a symbol or the padding. -/
theorem mem_encodeGroup {a : Base64Alphabet} {bytes : List UInt8} {c : Char}
    (h : c ∈ encodeGroup a bytes) : (∃ v < 64, c = a.symbol v) ∨ c = '=' := by
  have hsym (n : Nat) : ∃ v < 64, a.symbol (n % 64) = a.symbol v :=
    ⟨n % 64, Nat.mod_lt _ (by decide), rfl⟩
  unfold encodeGroup at h
  split at h <;> simp only [List.mem_cons, List.not_mem_nil, or_false] at h
  all_goals
    rcases h with rfl | rfl | rfl | rfl <;>
      first | exact .inr rfl | exact .inl (hsym _)

theorem mem_encodeChars {a : Base64Alphabet} {bytes : List UInt8} {c : Char}
    (h : c ∈ encodeChars a bytes) : (∃ v < 64, c = a.symbol v) ∨ c = '=' := by
  fun_induction encodeChars a bytes with
  | case1 bytes hshort => exact mem_encodeGroup h
  | case2 bytes hlong ih =>
    rcases List.mem_append.mp h with h | h
    · exact mem_encodeGroup h
    · exact ih h

/-- The encoder writes ASCII text with no white space. -/
theorem Base64Alphabet.Readable.encodeChars_ascii {a : Base64Alphabet} (ha : a.Readable)
    {bytes : List UInt8} {c : Char} (h : c ∈ encodeChars a bytes) :
    c.toNat < 128 ∧ isWhiteSpace c = false := by
  rcases mem_encodeChars h with ⟨v, hv, rfl⟩ | rfl
  · exact (ha.symbols v hv).2
  · exact pad_char.2

/-! ## Groups of bytes -/

/-- A full group of three bytes. -/
def tripleBytes (g : UInt8 × UInt8 × UInt8) : List UInt8 := [g.1, g.2.1, g.2.2]

/-- The number three bytes spell, most significant first. -/
def tripleNum (g : UInt8 × UInt8 × UInt8) : Nat := g.1.toNat * 65536 + g.2.1.toNat * 256 + g.2.2.toNat

/-- The four six-bit values of a 24-bit number, most significant first. -/
def sextets (n : Nat) : List Nat := [n / 262144 % 64, n / 4096 % 64, n / 64 % 64, n % 64]

theorem sextets_lt (n : Nat) : ∀ v ∈ sextets n, v < 64 := by
  simp only [sextets, List.mem_cons, List.not_mem_nil, or_false]
  rintro v (rfl | rfl | rfl | rfl) <;> exact Nat.mod_lt _ (by decide)

theorem length_flatMap_sextets (groups : List (UInt8 × UInt8 × UInt8)) :
    (groups.flatMap fun g => sextets (tripleNum g)).length = 4 * groups.length := by
  simp [List.length_flatMap, sextets, List.map_const', Nat.mul_comm]

theorem encodeGroup_triple (a : Base64Alphabet) (g : UInt8 × UInt8 × UInt8) :
    encodeGroup a (tripleBytes g) = (sextets (tripleNum g)).map a.symbol := rfl

theorem encodeChars_short (a : Base64Alphabet) {bytes : List UInt8} (h : bytes.length ≤ 3) :
    encodeChars a bytes = encodeGroup a bytes := by
  rw [encodeChars, dif_pos h]

theorem encodeChars_triple_append (a : Base64Alphabet) (g : UInt8 × UInt8 × UInt8)
    (rest : List UInt8) :
    encodeChars a (tripleBytes g ++ rest) = encodeGroup a (tripleBytes g) ++ encodeChars a rest := by
  cases rest with
  | nil =>
    have hnil : encodeGroup a [] = [] := rfl
    rw [List.append_nil, encodeChars_short a (by simp [tripleBytes]),
      encodeChars_short a (by simp), hnil, List.append_nil]
  | cons b rest =>
    rw [encodeChars, dif_neg (by simp [tripleBytes])]
    rfl

/-- Bytes are full groups of three followed by a last group of one to three bytes. -/
theorem exists_groups : ∀ {bytes : List UInt8}, bytes ≠ [] →
    ∃ (groups : List (UInt8 × UInt8 × UInt8)) (last : List UInt8),
      bytes = groups.flatMap tripleBytes ++ last ∧ 1 ≤ last.length ∧ last.length ≤ 3
  | [], h => absurd rfl h
  | [b0], _ => ⟨[], [b0], by simp, by simp, by simp⟩
  | [b0, b1], _ => ⟨[], [b0, b1], by simp, by simp, by simp⟩
  | [b0, b1, b2], _ => ⟨[], [b0, b1, b2], by simp, by simp, by simp⟩
  | b0 :: b1 :: b2 :: b3 :: rest, _ => by
    obtain ⟨groups, last, hsplit, hlo, hhi⟩ := exists_groups (show b3 :: rest ≠ [] by simp)
    exact ⟨(b0, b1, b2) :: groups, last, by simp [hsplit, tripleBytes], hlo, hhi⟩

/-- The symbols of bytes made of full groups and a short last group. -/
theorem encodeChars_groups (a : Base64Alphabet) (groups : List (UInt8 × UInt8 × UInt8))
    {last : List UInt8} (hlast : last.length ≤ 3) :
    encodeChars a (groups.flatMap tripleBytes ++ last) =
      (groups.flatMap fun g => sextets (tripleNum g)).map a.symbol ++ encodeGroup a last := by
  induction groups with
  | nil => simp [encodeChars_short a hlast]
  | cons g groups ih =>
    rw [List.flatMap_cons, List.append_assoc, encodeChars_triple_append, ih, encodeGroup_triple,
      List.flatMap_cons, List.map_append, List.append_assoc]

theorem encodeGroup_length (a : Base64Alphabet) {last : List UInt8} (hlo : 1 ≤ last.length)
    (hhi : last.length ≤ 3) : (encodeGroup a last).length = 4 := by
  match last, hlo, hhi with
  | [_], _, _ | [_, _], _, _ | [_, _, _], _, _ => rfl

/-- Padded text has four symbols for every group of three bytes or fewer. -/
theorem encodeChars_length (a : Base64Alphabet) (bytes : List UInt8) :
    (encodeChars a bytes).length = 4 * ((bytes.length + 2) / 3) := by
  fun_induction encodeChars a bytes with
  | case1 bytes hshort =>
    cases bytes with
    | nil => rfl
    | cons b rest =>
      rw [encodeGroup_length a (by simp) hshort]
      simp only [List.length_cons] at hshort ⊢
      omega
  | case2 bytes hlong ih =>
    have hfirst : (bytes.take 3).length = 3 := by
      rw [List.length_take]
      omega
    rw [List.length_append, encodeGroup_length a (by omega) (by omega), ih, List.length_drop]
    omega

/-! ## Decoding -/

theorem toUInt8_of_eq {x : Nat} {b : UInt8} (h : x = b.toNat) : x.toUInt8 = b := by
  subst h
  exact UInt8.ofNat_toNat

section Readable

variable {a : Base64Alphabet} (ha : a.Readable)
include ha

/-- The bytes of symbols of six-bit values read back as the values. -/
theorem Base64Alphabet.Readable.symbolValues_symbols {vs : List Nat} (h : ∀ v ∈ vs, v < 64)
    (offset : Nat) : symbolValues a offset (vs.map fun v => (a.symbol v).toUInt8) = .ok vs := by
  induction vs generalizing offset with
  | nil => rfl
  | cons v vs ih =>
    rw [List.map_cons, symbolValues, (ha.symbols v (h v (by simp))).1]
    dsimp only
    rw [ih (fun w hw => h w (List.mem_cons_of_mem _ hw))]
    rfl

end Readable

/-- Two symbol values carry one byte, above four spare bits. -/
theorem bytesOfSymbols_two (v0 v1 : Nat) :
    bytesOfSymbols [v0, v1] = [((v0 * 64 + v1) / 16 % 256).toUInt8] := by
  simp [bytesOfSymbols]

/-- Three symbol values carry two bytes, above two spare bits. -/
theorem bytesOfSymbols_three (v0 v1 v2 : Nat) :
    bytesOfSymbols [v0, v1, v2] =
      [(((v0 * 64 + v1) * 64 + v2) / 4 / 256 % 256).toUInt8,
        (((v0 * 64 + v1) * 64 + v2) / 4 % 256).toUInt8] := by
  simp [bytesOfSymbols, List.range_succ]

/-- Four symbol values carry three bytes, the high bits first. -/
theorem bytesOfSymbols_four (v0 v1 v2 v3 : Nat) :
    bytesOfSymbols [v0, v1, v2, v3] =
      [((((v0 * 64 + v1) * 64 + v2) * 64 + v3) / 65536 % 256).toUInt8,
        ((((v0 * 64 + v1) * 64 + v2) * 64 + v3) / 256 % 256).toUInt8,
        ((((v0 * 64 + v1) * 64 + v2) * 64 + v3) % 256).toUInt8] := by
  simp [bytesOfSymbols, List.range_succ]

theorem foldl_symbols_two (v0 v1 : Nat) :
    [v0, v1].foldl (fun acc v => acc * 64 + v) 0 = v0 * 64 + v1 := by simp

theorem foldl_symbols_three (v0 v1 v2 : Nat) :
    [v0, v1, v2].foldl (fun acc v => acc * 64 + v) 0 = (v0 * 64 + v1) * 64 + v2 := by simp

/-- Four symbols carry whole bytes: no bit is left over. -/
theorem spare_four {vs : List Nat} (h : vs.length = 4) :
    vs.foldl (fun acc v => acc * 64 + v) 0 % 2 ^ (vs.length * 6 - vs.length * 6 / 8 * 8) = 0 := by
  rw [h]
  exact Nat.mod_one _

/-- Four symbols carry back the three bytes they were made of. -/
theorem bytesOfSymbols_sextets (g : UInt8 × UInt8 × UInt8) :
    bytesOfSymbols (sextets (tripleNum g)) = tripleBytes g := by
  obtain ⟨b0, b1, b2⟩ := g
  have h0 := b0.toNat_lt
  have h1 := b1.toNat_lt
  have h2 := b2.toNat_lt
  rw [sextets, bytesOfSymbols_four]
  simp only [tripleNum, tripleBytes]
  refine List.cons_eq_cons.mpr ⟨toUInt8_of_eq ?_, List.cons_eq_cons.mpr ⟨toUInt8_of_eq ?_,
    List.cons_eq_cons.mpr ⟨toUInt8_of_eq ?_, rfl⟩⟩⟩ <;> omega

theorem bytesOfGroups_nil : bytesOfGroups [] = [] := by
  rw [bytesOfGroups, dif_pos (by simp)]
  rfl

theorem bytesOfGroups_four_append {vs : List Nat} (h : vs.length = 4) (rest : List Nat) :
    bytesOfGroups (vs ++ rest) = bytesOfSymbols vs ++ bytesOfGroups rest := by
  cases rest with
  | nil => rw [List.append_nil, bytesOfGroups, dif_pos (by omega), bytesOfGroups_nil, List.append_nil]
  | cons v rest =>
    rw [bytesOfGroups, dif_neg (by simp; omega), List.take_left' h, List.drop_left' h]

/-- The values of full groups read back as their bytes. -/
theorem bytesOfGroups_groupSextets (groups : List (UInt8 × UInt8 × UInt8)) :
    bytesOfGroups (groups.flatMap fun g => sextets (tripleNum g)) = groups.flatMap tripleBytes := by
  induction groups with
  | nil => exact bytesOfGroups_nil
  | cons g groups ih =>
    rw [List.flatMap_cons, bytesOfGroups_four_append rfl, ih, bytesOfSymbols_sextets,
      List.flatMap_cons]

/-- What the decoder asks of the last group: at least two symbols, padding to four, no bits
set below the last byte, and the bytes it carries. -/
structure LastGroup.Accepts (g : LastGroup) (last : List UInt8) : Prop where
  enough : 2 ≤ g.values.length
  padded : (g.pads + g.values.length) % 4 = 0
  spare : g.values.foldl (fun acc v => acc * 64 + v) 0 %
    2 ^ (g.values.length * 6 - g.values.length * 6 / 8 * 8) = 0
  bytes : bytesOfSymbols g.values = last

theorem Base64Alphabet.Readable.scanLastGroup_symbol {a : Base64Alphabet} (ha : a.Readable)
    {v : Nat} (hv : v < 64) {g : LastGroup} (hpads : g.pads = 0) (start k : Nat)
    (rest : List UInt8) :
    scanLastGroup a start k g ((a.symbol v).toUInt8 :: rest) =
      scanLastGroup a start (k + 1)
        { g with values := g.values ++ [v], lastSymbol := (a.symbol v).toUInt8 } rest := by
  rw [scanLastGroup, if_neg (ha.symbol_ne_padByte hv), if_neg (by omega), (ha.symbols v hv).1]

theorem scanLastGroup_pad {a : Base64Alphabet} {k : Nat} (hk : 2 ≤ k) (start : Nat) (g : LastGroup)
    (rest : List UInt8) :
    scanLastGroup a start k g ('='.toUInt8 :: rest) =
      scanLastGroup a start (k + 1)
        { g with pads := g.pads + 1, firstPad := if g.pads = 0 then k else g.firstPad } rest := by
  rw [scanLastGroup, if_pos pad_char.1, if_neg (by omega)]

/-- The symbols of a last group of one to three bytes pass the decoder's checks on the last
group and carry its bytes back. -/
theorem Base64Alphabet.Readable.scanLastGroup_encodeGroup {a : Base64Alphabet} (ha : a.Readable)
    {last : List UInt8} (hlo : 1 ≤ last.length) (hhi : last.length ≤ 3) (start : Nat) :
    ∃ g : LastGroup, scanLastGroup a start 0 {}
      ((encodeGroup a last).map Char.toUInt8) = .ok g ∧ g.Accepts last := by
  have hlt (n d : Nat) : n / d % 64 < 64 := Nat.mod_lt _ (by decide)
  match last, hlo, hhi with
  | [b0], _, _ =>
    -- two symbols and two pads; the second symbol has four unused bits
    have h0 := b0.toNat_lt
    refine ⟨⟨[b0.toNat * 65536 / 262144 % 64, b0.toNat * 65536 / 4096 % 64], 2, 2,
      (a.symbol (b0.toNat * 65536 / 4096 % 64)).toUInt8⟩, ?_, ?_⟩
    · simp only [encodeGroup, List.map_cons, List.map_nil]
      rw [ha.scanLastGroup_symbol (hlt _ _) rfl, ha.scanLastGroup_symbol (hlt _ _) rfl,
        scanLastGroup_pad (by decide), scanLastGroup_pad (by decide)]
      rfl
    · refine ⟨by simp, by simp, ?_, ?_⟩
      · dsimp only
        rw [foldl_symbols_two]
        simp only [List.length_cons, List.length_nil]
        omega
      · dsimp only
        rw [bytesOfSymbols_two]
        exact List.cons_eq_cons.mpr ⟨toUInt8_of_eq (by omega), rfl⟩
  | [b0, b1], _, _ =>
    -- three symbols and one pad; the third symbol has two unused bits
    have h0 := b0.toNat_lt
    have h1 := b1.toNat_lt
    refine ⟨⟨[(b0.toNat * 65536 + b1.toNat * 256) / 262144 % 64,
      (b0.toNat * 65536 + b1.toNat * 256) / 4096 % 64,
      (b0.toNat * 65536 + b1.toNat * 256) / 64 % 64], 1, 3,
      (a.symbol ((b0.toNat * 65536 + b1.toNat * 256) / 64 % 64)).toUInt8⟩, ?_, ?_⟩
    · simp only [encodeGroup, List.map_cons, List.map_nil]
      rw [ha.scanLastGroup_symbol (hlt _ _) rfl, ha.scanLastGroup_symbol (hlt _ _) rfl,
        ha.scanLastGroup_symbol (hlt _ _) rfl, scanLastGroup_pad (by decide)]
      rfl
    · refine ⟨by simp, by simp, ?_, ?_⟩
      · dsimp only
        rw [foldl_symbols_three]
        simp only [List.length_cons, List.length_nil]
        omega
      · dsimp only
        rw [bytesOfSymbols_three]
        exact List.cons_eq_cons.mpr ⟨toUInt8_of_eq (by omega),
          List.cons_eq_cons.mpr ⟨toUInt8_of_eq (by omega), rfl⟩⟩
  | [b0, b1, b2], _, _ =>
    -- a full group: four symbols, no pad and no unused bits
    refine ⟨⟨sextets (tripleNum (b0, b1, b2)), 0, 0,
      (a.symbol (tripleNum (b0, b1, b2) % 64)).toUInt8⟩, ?_, ?_⟩
    · simp only [encodeGroup, List.map_cons, List.map_nil]
      rw [ha.scanLastGroup_symbol (hlt _ _) rfl, ha.scanLastGroup_symbol (hlt _ _) rfl,
        ha.scanLastGroup_symbol (hlt _ _) rfl, ha.scanLastGroup_symbol (Nat.mod_lt _ (by decide)) rfl]
      rfl
    · exact ⟨by simp [sextets], by simp [sextets], spare_four rfl,
        bytesOfSymbols_sextets (b0, b1, b2)⟩

/-- Strict decoding reads every byte string back from the symbols the encoder writes. -/
theorem Base64Alphabet.Readable.base64Decode_encodeChars {a : Base64Alphabet} (ha : a.Readable)
    (bytes : List UInt8) : base64Decode a ((encodeChars a bytes).map Char.toUInt8) = .ok bytes := by
  by_cases hnil : bytes = []
  · subst hnil
    rw [encodeChars_short _ (by simp), show encodeGroup a [] = [] from rfl, List.map_nil]
    simp [base64Decode, symbolValues, scanLastGroup, bind, Except.bind, bytesOfGroups_nil,
      bytesOfSymbols]
    rfl
  obtain ⟨groups, last, rfl, hlo, hhi⟩ := exists_groups hnil
  obtain ⟨g, hscan, hacc⟩ := ha.scanLastGroup_encodeGroup hlo hhi (4 * groups.length)
  have hlead := length_flatMap_sextets groups
  have hsix : ∀ v ∈ groups.flatMap (fun g => sextets (tripleNum g)), v < 64 := by
    simp only [List.mem_flatMap]
    rintro v ⟨g, -, hv⟩
    exact sextets_lt _ v hv
  have hlast : ((encodeGroup a last).map Char.toUInt8).length = 4 := by
    rw [List.length_map, encodeGroup_length _ hlo hhi]
  have hvalues : symbolValues a 0 ((groups.flatMap fun g => sextets (tripleNum g)).map
      (Char.toUInt8 ∘ a.symbol)) = .ok (groups.flatMap fun g => sextets (tripleNum g)) :=
    ha.symbolValues_symbols hsix 0
  have henough : ¬ g.values.length < 2 := Nat.not_lt.mpr hacc.enough
  rw [encodeChars_groups _ _ hhi, List.map_append, List.map_map]
  -- the body is every group but the last
  have hlen : (4 * groups.length + 4) % 4 = 0 := by omega
  have hbody : 4 * groups.length + 4 - 0 - 4 = 4 * groups.length := by omega
  have hwidth : ((groups.flatMap fun g => sextets (tripleNum g)).map
      (Char.toUInt8 ∘ a.symbol)).length = 4 * groups.length := by
    rw [List.length_map, hlead]
  have htake : (((groups.flatMap fun g => sextets (tripleNum g)).map
      (Char.toUInt8 ∘ a.symbol)) ++ (encodeGroup a last).map Char.toUInt8).take
        (4 * groups.length) =
      (groups.flatMap fun g => sextets (tripleNum g)).map (Char.toUInt8 ∘ a.symbol) :=
    List.take_left' hwidth
  have hdrop : (((groups.flatMap fun g => sextets (tripleNum g)).map
      (Char.toUInt8 ∘ a.symbol)) ++ (encodeGroup a last).map Char.toUInt8).drop
        (4 * groups.length) = (encodeGroup a last).map Char.toUInt8 :=
    List.drop_left' hwidth
  unfold base64Decode
  simp only [List.length_append, List.length_map, hlead, hlast, hlen, Nat.zero_ne_one, if_false,
    if_true, hbody, htake, hdrop]
  rw [hvalues, hscan]
  simp only [bind, Except.bind, henough, and_false, if_false, hacc.padded, hacc.spare,
    ne_eq, not_true_eq_false, hacc.bytes, bytesOfGroups_groupSextets]
  rfl

/-- Base64 text written by the encoder reads back, through the trimming of white space and its
UTF-8 bytes, as the bytes it was made of. -/
theorem Base64Alphabet.Readable.base64Decode_trimWhite_encode {a : Base64Alphabet}
    (ha : a.Readable) (bytes : List UInt8) :
    base64Decode a (trimWhite (base64Encode a bytes)).toUTF8.toList = .ok bytes := by
  unfold base64Encode
  rw [trimWhite_ofList fun c hc => (ha.encodeChars_ascii hc).2,
    toUTF8_ofList_ascii fun c hc => (ha.encodeChars_ascii hc).1]
  exact ha.base64Decode_encodeChars bytes

/-- In particular for the standard alphabet. -/
theorem base64Decode_trimWhite_encode (bytes : List UInt8) :
    base64Decode standard (trimWhite (base64Encode standard bytes)).toUTF8.toList = .ok bytes :=
  standard_readable.base64Decode_trimWhite_encode bytes

/-! ## What a decoder accepts -/

/-- Two checked steps in a row that succeed both succeeded. -/
theorem exists_of_bind_bind_eq_ok {ε α β γ : Type} {x : Except ε α} {y : Except ε β}
    {f : α → β → Except ε γ} {c : γ} (h : (x >>= fun a => y >>= fun b => f a b) = .ok c) :
    ∃ a b, x = .ok a ∧ y = .ok b := by
  cases x with
  | error e => cases h
  | ok a =>
    cases y with
    | error e => cases h
    | ok b => exact ⟨a, b, rfl, rfl⟩

/-- Text that decodes was read as plain symbols up to its last group, and its last group was
read. -/
theorem base64Decode_reads {a : Base64Alphabet} {input b : List UInt8}
    (h : base64Decode a input = .ok b) :
    let body := input.length - input.length % 4 - (if input.length % 4 = 0 then 4 else 0)
    ∃ leading g, symbolValues a 0 (input.take body) = .ok leading ∧
      scanLastGroup a body 0 {} (input.drop body) = .ok g := by
  intro body
  rw [base64Decode] at h
  -- the length check either refuses the text or goes on to read it
  split at h
  · split at h
    · split at h
      · cases h
      · exact exists_of_bind_bind_eq_ok h
    · exact exists_of_bind_bind_eq_ok h
  · exact exists_of_bind_bind_eq_ok h

theorem symbolValues_ok_valid {a : Base64Alphabet} :
    ∀ {offset : Nat} {l : List UInt8} {vs : List Nat}, symbolValues a offset l = .ok vs →
      ∀ x ∈ l, (a.value? x).isSome
  | _, [], _, _ => by simp
  | offset, b :: rest, vs, h => by
    rw [symbolValues] at h
    split at h
    · cases h
    · rename_i v hv
      cases hrest : symbolValues a (offset + 1) rest with
      | error e =>
        rw [hrest] at h
        cases h
      | ok vs' =>
        intro x hx
        rcases List.mem_cons.mp hx with rfl | hx
        · simp [hv]
        · exact symbolValues_ok_valid hrest x hx

theorem scanLastGroup_ok_valid {a : Base64Alphabet} {start : Nat} :
    ∀ {k : Nat} {g g' : LastGroup} {l : List UInt8}, scanLastGroup a start k g l = .ok g' →
      ∀ x ∈ l, x = padByte ∨ (a.value? x).isSome
  | _, _, _, [], _ => by simp
  | k, g, g', b :: rest, h => by
    intro x hx
    rw [scanLastGroup] at h
    split at h
    · -- a padding byte
      rename_i hpad
      split at h
      · cases h
      · rcases List.mem_cons.mp hx with rfl | hx
        · exact .inl hpad
        · exact scanLastGroup_ok_valid h x hx
    · split at h
      · cases h
      · split at h
        · cases h
        · -- a symbol
          rename_i v hv
          rcases List.mem_cons.mp hx with rfl | hx
          · simp [hv]
          · exact scanLastGroup_ok_valid h x hx

/-- Every byte of text that decodes is a symbol of the alphabet or the padding. -/
theorem base64Decode_ok_valid {a : Base64Alphabet} {input b : List UInt8}
    (h : base64Decode a input = .ok b) : ∀ x ∈ input, x = padByte ∨ (a.value? x).isSome := by
  obtain ⟨leading, g, hlead, hlast⟩ := base64Decode_reads h
  intro x hx
  rw [← List.take_append_drop (input.length - input.length % 4 -
    (if input.length % 4 = 0 then 4 else 0)) input] at hx
  rcases List.mem_append.mp hx with hx | hx
  · exact .inr (symbolValues_ok_valid hlead x hx)
  · exact scanLastGroup_ok_valid hlast x hx

/-! ## The two alphabets -/

/-- The URL-safe form of a character: `-` for `+`, `_` for `/`, any other kept. -/
def urlSafeChar (c : Char) : Char := if c = '+' then '-' else if c = '/' then '_' else c

theorem urlSafe_symbol : ∀ v, v < 64 → urlSafe.symbol v = urlSafeChar (standard.symbol v) := by
  decide

theorem encodeGroup_urlSafe (last : List UInt8) :
    encodeGroup urlSafe last = (encodeGroup standard last).map urlSafeChar := by
  have hmod (n : Nat) : n % 64 < 64 := Nat.mod_lt _ (by decide)
  have hpad : urlSafeChar '=' = '=' := by decide
  match last with
  | [] => rfl
  | [_] => simp [encodeGroup, urlSafe_symbol _ (hmod _), hpad]
  | [_, _] => simp [encodeGroup, urlSafe_symbol _ (hmod _), hpad]
  | [_, _, _] => simp [encodeGroup, urlSafe_symbol _ (hmod _)]
  | _ :: _ :: _ :: _ :: _ => rfl

/-- URL-safe text is standard text with `+` and `/` replaced. -/
theorem encodeChars_urlSafe (bytes : List UInt8) :
    encodeChars urlSafe bytes = (encodeChars standard bytes).map urlSafeChar := by
  fun_induction encodeChars urlSafe bytes with
  | case1 bytes hshort => rw [encodeChars_short standard hshort, encodeGroup_urlSafe]
  | case2 bytes hlong ih =>
    have hstd : encodeChars standard bytes =
        encodeGroup standard (bytes.take 3) ++ encodeChars standard (bytes.drop 3) := by
      rw [encodeChars, dif_neg hlong]
    rw [hstd, List.map_append, encodeGroup_urlSafe, ih]

/-- URL-safe decoding of standard text fails or reads the same bytes: text it accepts has no `+`
and no `/`, so it is also the URL-safe text of those bytes. -/
theorem base64Decode_urlSafe_of_standard {bytes b : List UInt8}
    (h : base64Decode urlSafe ((encodeChars standard bytes).map Char.toUInt8) = .ok b) :
    b = bytes := by
  have hvalid := base64Decode_ok_valid h
  have hplus : ¬ ('+'.toUInt8 = padByte ∨ (urlSafe.value? '+'.toUInt8).isSome) := by decide
  have hslash : ¬ ('/'.toUInt8 = padByte ∨ (urlSafe.value? '/'.toUInt8).isSome) := by decide
  -- so every character of the text is kept by the renaming to URL-safe symbols
  have hsame : encodeChars urlSafe bytes = encodeChars standard bytes := by
    rw [encodeChars_urlSafe]
    refine (List.map_congr_left fun c hc => ?_).trans (List.map_id _)
    have hc' := hvalid c.toUInt8 (List.mem_map_of_mem hc)
    unfold urlSafeChar
    split
    · rename_i hplus'
      subst hplus'
      exact absurd hc' hplus
    · split
      · rename_i hslash'
        subst hslash'
        exact absurd hc' hslash
      · rfl
  rw [← hsame, urlSafe_readable.base64Decode_encodeChars bytes] at h
  cases h
  rfl

end PoolTreasury
