import Mathlib.Data.List.Nodup
import PoolTreasury.Proofs.Decimal.Value
import PoolTreasury.Market.Quote

/-! # Which price a market response gives

A rates response is read as a map from tokens to entries, and an entry as a map from
currencies to prices. Reading a map keeps, for each key, the last value written under it, and
keeps the keys in the order they first appear (`find?_mapEntries`, `keys_mapEntries_nodup`).
So the entry the rates parser reads is the one `Json.get?` finds for the token, or the entry of
the only key of the map (`RatesEntry`), and the price is the one under `USD`, or under `usd`
when `USD` is absent (`UsdQuote`).

A pairs response is a list of pairs, sorted by liquidity from the largest down. The sort is
stable, so the first pair after sorting is the first, in the order given, of the pairs whose
liquidity is largest (`head?_mergeSort_desc`). So the pairs parser answers the price of the
pair that `MostLiquidFirst` describes.

The main statement, `quote_parsers_pick_specified_price`, says for every body what each parser
answers: that price when it is above zero, `noPrice` exactly when there is no such price, and
`invalidResponse` exactly when the body does not have the response's shape.
-/

namespace PoolTreasury

/-! ## Reading a map -/

section Entries

/-- A field read after the others: a key seen before takes the new value in its place, a new
key goes last. -/
theorem mapEntries_append_singleton (fs : List (String × Json)) (k : String) (v : Json) :
    mapEntries (fs ++ [(k, v)]) =
      if (mapEntries fs).any (·.1 == k) then
        (mapEntries fs).map fun e => if e.1 == k then (k, v) else e
      else mapEntries fs ++ [(k, v)] := by
  rw [mapEntries, List.foldl_append]
  rfl

/-- The last field under a key is the first one found from the end. -/
theorem get?_object_append_singleton (fs : List (String × Json)) (k k' : String) (v : Json) :
    (Json.object (fs ++ [(k, v)])).get? k' =
      if k = k' then some v else (Json.object fs).get? k' := by
  by_cases h : k = k' <;> simp [Json.get?, h]

/-- A field of a map is found under its key by the first field with that key, which reading the
map leaves at the last value written under it. -/
theorem find?_mapEntries (fs : List (String × Json)) (k : String) :
    (mapEntries fs).find? (·.1 == k) = ((Json.object fs).get? k).map ((k, ·)) := by
  induction fs using List.reverseRecOn with
  | nil => rfl
  | append_singleton fs x ih =>
    obtain ⟨k', v⟩ := x
    rw [mapEntries_append_singleton, get?_object_append_singleton]
    split
    · -- a key seen before: its place takes the new value, the others keep theirs
      rename_i hany
      rw [List.find?_map]
      have hkeys : ((fun e : String × Json => e.1 == k) ∘
          fun e => if e.1 == k' then (k', v) else e) = fun e => e.1 == k := by
        funext e
        by_cases he : e.1 = k' <;> simp [he]
      rw [hkeys, ih]
      by_cases hk : k' = k
      · subst hk
        obtain ⟨e, he, hek⟩ := List.any_eq_true.mp hany
        have hfound : ((Json.object fs).get? k').isSome := by
          rw [← Option.isSome_map (f := (k', ·)), ← ih]
          exact List.find?_isSome.mpr ⟨e, he, hek⟩
        obtain ⟨w, hw⟩ := Option.isSome_iff_exists.mp hfound
        simp [hw]
      · cases (Json.object fs).get? k <;> simp [hk, Ne.symm hk]
    · -- a new key goes last
      rename_i hany
      rw [List.find?_append, ih]
      by_cases hk : k' = k
      · subst hk
        have hnone : (mapEntries fs).find? (·.1 == k') = none :=
          List.find?_eq_none.mpr fun e he hek => hany (List.any_eq_true.mpr ⟨e, he, hek⟩)
        rw [ih] at hnone
        simp [Option.map_eq_none_iff.mp hnone]
      · simp [hk]

/-- The keys of a read map. -/
def mapKeys (fs : List (String × Json)) : List String := (mapEntries fs).map Prod.fst

/-- A key is in a read map exactly when some field has it. -/
theorem mem_mapKeys {fs : List (String × Json)} {k : String} :
    k ∈ mapKeys fs ↔ ∃ x ∈ fs, x.1 = k :=
  calc k ∈ mapKeys fs ↔ ((mapEntries fs).find? (·.1 == k)).isSome := by
        simp [mapKeys, List.find?_isSome]
    _ ↔ ((Json.object fs).get? k).isSome := by rw [find?_mapEntries, Option.isSome_map]
    _ ↔ ∃ x ∈ fs, x.1 = k := by simp [Json.get?, List.find?_isSome]

/-- Each key of a read map appears once. -/
theorem mapKeys_nodup (fs : List (String × Json)) : (mapKeys fs).Nodup := by
  induction fs using List.reverseRecOn with
  | nil => exact List.nodup_nil
  | append_singleton fs x ih =>
    obtain ⟨k, v⟩ := x
    unfold mapKeys at ih ⊢
    rw [mapEntries_append_singleton]
    split
    · -- a key seen before: the keys stay as they were
      have hfst : (Prod.fst ∘ fun e : String × Json => if e.1 == k then (k, v) else e) =
          Prod.fst := by
        funext e
        by_cases he : e.1 = k <;> simp [he]
      rwa [List.map_map, hfst]
    · -- a new key goes last
      rename_i hany
      rw [List.map_append, List.nodup_append]
      refine ⟨ih, List.nodup_singleton k, fun a ha b hb hab => hany ?_⟩
      obtain ⟨e, he, rfl⟩ := List.mem_map.mp ha
      rw [List.map_cons, List.map_nil, List.mem_singleton] at hb
      exact List.any_eq_true.mpr ⟨e, he, by simp [hab, hb]⟩

/-- The fields are not empty and all have the key `k`: the map has the one key `k`. -/
def OnlyKey (fs : List (String × Json)) (k : String) : Prop := fs ≠ [] ∧ ∀ x ∈ fs, x.1 = k

/-- A read map has one entry exactly when it has one key. -/
theorem length_mapEntries_eq_one_iff {fs : List (String × Json)} :
    (mapEntries fs).length = 1 ↔ ∃ k, OnlyKey fs k := by
  have hlen : (mapEntries fs).length = (mapKeys fs).length := (List.length_map _).symm
  rw [hlen]
  constructor
  · intro h
    obtain ⟨k, hk⟩ := List.length_eq_one_iff.mp h
    refine ⟨k, fun hnil => ?_, fun x hx => ?_⟩
    · subst hnil
      simp [mapKeys, mapEntries] at hk
    · have hmem : x.1 ∈ mapKeys fs := mem_mapKeys.mpr ⟨x, hx, rfl⟩
      rwa [hk, List.mem_singleton] at hmem
  · rintro ⟨k, hne, hall⟩
    -- every key is `k`, and keys do not repeat, so there is one
    have hrep : mapKeys fs = List.replicate (mapKeys fs).length k :=
      List.eq_replicate_iff.mpr ⟨rfl, fun b hb => by
        obtain ⟨x, hx, rfl⟩ := mem_mapKeys.mp hb
        exact hall x hx⟩
    have hle : (mapKeys fs).length ≤ 1 := by
      have hnodup := mapKeys_nodup fs
      rw [hrep] at hnodup
      exact List.nodup_replicate.mp hnodup
    obtain ⟨x, hx⟩ := List.exists_mem_of_ne_nil fs hne
    have hpos : 0 < (mapKeys fs).length :=
      List.length_pos_of_mem (mem_mapKeys.mpr ⟨x, hx, rfl⟩)
    omega

/-- A map with one key reads as the last value written under it. -/
theorem head?_mapEntries_of_onlyKey {fs : List (String × Json)} {k : String}
    (h : OnlyKey fs k) : (mapEntries fs).head?.map Prod.snd = (Json.object fs).get? k := by
  obtain ⟨e, he⟩ := List.length_eq_one_iff.mp (length_mapEntries_eq_one_iff.mpr ⟨k, h⟩)
  -- the one entry is under `k`, so it is what a lookup of `k` finds
  have hek : e.1 = k := by
    obtain ⟨x, hx, hxe⟩ := mem_mapKeys.mp (show e.1 ∈ mapKeys fs by simp [mapKeys, he])
    rw [← hxe]
    exact h.2 x hx
  have hfind := find?_mapEntries fs k
  rw [he, List.find?_singleton, if_pos (by simp [hek])] at hfind
  obtain ⟨w, hw, hwe⟩ := Option.map_eq_some_iff.mp hfind.symm
  rw [he, hw, List.head?_cons, Option.map_some, ← hwe]

end Entries

/-! ## The rates parser -/

/-- The fields of the map under `key`; none when it is absent or holds no map. -/
def Json.members (j : Json) (key : String) : List (String × Json) :=
  ((j.get? key).bind Json.fields?).getD []

/-- The entry a rates map gives for a token: the entry under the token, or, when there is none,
the entry of the map's only key. -/
inductive RatesEntry (rates : List (String × Json)) (token : String) : Json → Prop
  | own {e : Json} : (Json.object rates).get? token = some e → RatesEntry rates token e
  | only {k : String} {e : Json} : (Json.object rates).get? token = none → OnlyKey rates k →
      (Json.object rates).get? k = some e → RatesEntry rates token e

/-- The USD price among an entry's prices: under `USD`, or under `usd` when `USD` is absent. -/
inductive UsdQuote (prices : List (String × Json)) : Json → Prop
  | upper {v : Json} : (Json.object prices).get? "USD" = some v → UsdQuote prices v
  | lower {v : Json} : (Json.object prices).get? "USD" = none →
      (Json.object prices).get? "usd" = some v → UsdQuote prices v

/-- The price a rates response gives for a token: the USD price of the token's entry, read as a
decimal and above zero. -/
def RatesPrice (response : Json) (token : String) (p : Decimal) : Prop :=
  ∃ entry v, RatesEntry (response.members "rates") token entry ∧
    UsdQuote (entry.members "prices") v ∧ priceOfJson v = some p ∧ 0 < p.value

/-- A usable price is a price above zero. -/
theorem usablePrice_eq_some_iff {x : Option Decimal} {p : Decimal} :
    usablePrice x = some p ↔ x = some p ∧ 0 < p.value := by
  rw [usablePrice, Option.filter_eq_some_iff, decide_eq_true_iff, Decimal.lt_iff_value_lt,
    Decimal.value_zero]

/-- Two keys that are each the only key of a map with fields are one key. -/
theorem OnlyKey.unique {fs : List (String × Json)} {k k' : String} (h : OnlyKey fs k)
    (h' : OnlyKey fs k') : k = k' := by
  obtain ⟨x, hx⟩ := List.exists_mem_of_ne_nil fs h.1
  rw [← h.2 x hx, h'.2 x hx]

theorem ratesEntry_mapEntries_eq_some_iff {rates : List (String × Json)} {token : String}
    {e : Json} : ratesEntry (mapEntries rates) token = some e ↔ RatesEntry rates token e := by
  unfold ratesEntry
  rw [find?_mapEntries]
  cases hget : (Json.object rates).get? token with
  | some v =>
    -- the token has its own entry
    simp only [Option.map_some, Option.some.injEq]
    constructor
    · rintro rfl
      exact .own hget
    · rintro (hown | ⟨hnone, -, -⟩)
      · rw [hget] at hown
        exact Option.some.inj hown
      · rw [hget] at hnone
        cases hnone
  | none =>
    simp only [Option.map_none]
    by_cases hone : ∃ k, OnlyKey rates k
    · -- the map's only entry
      obtain ⟨k, hk⟩ := hone
      rw [if_pos (length_mapEntries_eq_one_iff.mpr ⟨k, hk⟩), head?_mapEntries_of_onlyKey hk]
      constructor
      · exact RatesEntry.only hget hk
      · rintro (hown | ⟨-, hk', he⟩)
        · rw [hget] at hown
          cases hown
        · rwa [hk.unique hk']
    · rw [if_neg (mt length_mapEntries_eq_one_iff.mp hone)]
      constructor
      · intro h
        cases h
      · rintro (hown | ⟨-, hk', -⟩)
        · rw [hget] at hown
          cases hown
        · exact absurd ⟨_, hk'⟩ hone

theorem usdQuote_mapEntries_eq_some_iff {prices : List (String × Json)} {v : Json} :
    usdQuote (mapEntries prices) = some v ↔ UsdQuote prices v := by
  unfold usdQuote
  rw [find?_mapEntries, find?_mapEntries]
  cases hupper : (Json.object prices).get? "USD" with
  | some w =>
    simp only [Option.map_some, Option.orElse_some, Option.some.injEq]
    constructor
    · rintro rfl
      exact .upper hupper
    · rintro (h | ⟨h, -⟩) <;> rw [hupper] at h
      · exact Option.some.inj h
      · cases h
  | none =>
    simp only [Option.map_none, Option.orElse_none, Option.map_map]
    constructor
    · intro h
      obtain ⟨w, hw, rfl⟩ := Option.map_eq_some_iff.mp h
      exact .lower hupper hw
    · rintro (h | ⟨-, h⟩)
      · rw [hupper] at h
        cases h
      · rw [h]
        rfl

/-- The rates parser's price, once the body is read: the response's price for the token. -/
theorem usablePrice_rates_eq_some_iff {response : Json} {token : String} {p : Decimal} :
    usablePrice ((ratesEntry (mapEntries (response.members "rates")) token).bind fun r =>
      (usdQuote (mapEntries (r.members "prices"))).bind priceOfJson) = some p ↔
      RatesPrice response token p := by
  simp only [usablePrice_eq_some_iff, Option.bind_eq_some_iff, ratesEntry_mapEntries_eq_some_iff,
    usdQuote_mapEntries_eq_some_iff, RatesPrice]
  constructor
  · rintro ⟨⟨entry, hentry, v, hv, hp⟩, hpos⟩
    exact ⟨entry, v, hentry, hv, hp, hpos⟩
  · rintro ⟨entry, v, hentry, hv, hp, hpos⟩
    exact ⟨⟨entry, hentry, v, hv, hp⟩, hpos⟩

/-- A body that does not have the response's shape is an invalid response. -/
theorem parseRates_of_read_error {body token : String} {e : JsonError}
    (h : ratesShape.read body = .error e) :
    parseRates body token = .error (.invalidResponse ("rates: " ++ e.render)) := by
  unfold parseRates
  rw [h]
  rfl

/-- Once the body is read, the rates parser answers the response's price for the token, and
`noPrice` exactly when there is none. -/
theorem parseRates_of_read_ok {body token : String} {response : Json}
    (h : ratesShape.read body = .ok response) :
    (∀ p, parseRates body token = .ok p ↔ RatesPrice response token p) ∧
    (parseRates body token = .error (.noPrice token) ↔ ∀ p, ¬ RatesPrice response token p) ∧
    ∀ d, parseRates body token ≠ .error (.invalidResponse d) := by
  unfold parseRates
  rw [h]
  simp only [bind, Except.bind, pure, Except.pure]
  split
  · -- a usable price: it is the response's price, and the only one
    rename_i q hq
    have hunique : ∀ p, RatesPrice response token p → p = q := fun p hp =>
      Option.some.inj ((usablePrice_rates_eq_some_iff.mpr hp).symm.trans hq)
    refine ⟨fun p => ⟨fun hp => ?_, fun hp => by rw [hunique p hp]⟩,
      ⟨fun herr => (by cases herr),
        fun hnone => absurd (usablePrice_rates_eq_some_iff.mp hq) (hnone q)⟩,
      fun d herr => (by cases herr)⟩
    cases hp
    exact usablePrice_rates_eq_some_iff.mp hq
  · -- no usable price
    rename_i hq
    have hnone : ∀ p, ¬ RatesPrice response token p := fun p hp =>
      Option.some_ne_none p ((usablePrice_rates_eq_some_iff.mpr hp).symm.trans hq)
    exact ⟨fun p => ⟨fun hp => (by cases hp), fun hp => absurd hp (hnone p)⟩,
      ⟨fun _ => hnone, fun _ => rfl⟩, fun d herr => (by cases herr)⟩

/-! ## Sorting from the largest down -/

section Sorting

variable {α : Type} (key : α → Int)

/-- A stable sort from the largest key down puts first the first element, in the order given,
whose key is the largest. -/
theorem head?_mergeSort_desc (xs : List α) :
    (xs.mergeSort fun a b => key b ≤ key a).head? =
      xs.find? fun a => xs.all fun b => key b ≤ key a := by
  let le : α → α → Bool := fun a b => key b ≤ key a
  let top : α → Bool := fun a => xs.all fun b => key b ≤ key a
  have htrans : ∀ a b c, le a b = true → le b c = true → le a c = true := by
    intro a b c hab hbc
    simp only [le, decide_eq_true_eq] at hab hbc ⊢
    omega
  have htotal : ∀ a b, (le a b || le b a) = true := by
    intro a b
    simp only [le, Bool.or_eq_true, decide_eq_true_eq]
    omega
  have hperm := List.mergeSort_perm xs le
  -- the largest elements keep their order through the sort, and none other joins them
  have hpw : (xs.filter top).Pairwise fun a b => le a b = true := by
    refine List.pairwise_of_forall_mem_list fun a _ b hb => ?_
    obtain ⟨hb, -⟩ := List.mem_filter.mp hb
    obtain ⟨-, ha⟩ := List.mem_filter.mp ‹a ∈ xs.filter top›
    exact List.all_eq_true.mp ha b hb
  have hsub : (xs.filter top).Sublist ((xs.mergeSort le).filter top) := by
    have := (List.sublist_mergeSort htrans htotal hpw (List.filter_sublist (p := top))).filter top
    rwa [List.filter_filter, show (fun a => top a && top a) = top by funext a; simp] at this
  have heq := hsub.eq_of_length (hperm.filter top).length_eq.symm
  rw [← List.head?_filter]
  cases hs : xs.mergeSort le with
  | nil =>
    have : xs = [] := List.eq_nil_of_length_eq_zero (by rw [← hperm.length_eq, hs, List.length_nil])
    simp [this]
  | cons s rest =>
    -- the first element after sorting is at least every element
    have hsorted := List.pairwise_mergeSort htrans htotal xs
    rw [hs, List.pairwise_cons] at hsorted
    have htop : top s = true := List.all_eq_true.mpr fun b hb => by
      have hb' : b ∈ s :: rest := hs ▸ hperm.mem_iff.mpr hb
      rcases List.mem_cons.mp hb' with rfl | hrest
      · simp
      · exact hsorted.1 b hrest
    rw [heq, hs, List.filter_cons, if_pos htop]
    rfl

end Sorting

/-! ## The pairs parser -/

/-- The items of the list under `key`; none when it is absent or holds no list. -/
def Json.itemsAt (j : Json) (key : String) : List Json := ((j.get? key).bind Json.items?).getD []

/-- A pair's price is given, reads as a decimal, and is above zero. -/
def PricedAbove (pair : Json) (p : Decimal) : Prop :=
  (pair.field? "priceUsd").bind priceOfJson = some p ∧ 0 < p.value

/-- The price a pairs response gives: that of the first pair, in the order given, among the
pairs with a usable price whose liquidity is the largest under the total order of doubles. -/
def MostLiquidFirst (pairs : List Json) (p : Decimal) : Prop :=
  ∃ pre pair post, pairs = pre ++ pair :: post ∧ PricedAbove pair p ∧
    (∀ q ∈ pre, ∀ r, PricedAbove q r →
      totalOrderKey (pairLiquidity q) < totalOrderKey (pairLiquidity pair)) ∧
    (∀ q ∈ post, ∀ r, PricedAbove q r →
      totalOrderKey (pairLiquidity q) ≤ totalOrderKey (pairLiquidity pair))

theorem pairQuote_eq_some_iff {pair : Json} {x : Float × Decimal} :
    pairQuote pair = some x ↔ x.1 = pairLiquidity pair ∧ PricedAbove pair x.2 := by
  unfold pairQuote PricedAbove
  rw [Option.map_eq_some_iff]
  constructor
  · rintro ⟨p, hp, rfl⟩
    exact ⟨rfl, usablePrice_eq_some_iff.mp hp⟩
  · rintro ⟨hl, hp⟩
    exact ⟨x.2, usablePrice_eq_some_iff.mpr hp, Prod.ext hl.symm rfl⟩

section Pairs

variable {pairs : List Json}

/-- The priced pairs are the pairs with a usable price, each with its liquidity. -/
theorem mem_filterMap_pairQuote {x : Float × Decimal} :
    x ∈ pairs.filterMap pairQuote ↔ ∃ q ∈ pairs, x.1 = pairLiquidity q ∧ PricedAbove q x.2 := by
  simp only [List.mem_filterMap, pairQuote_eq_some_iff]

/-- The most liquid priced pair, as the parser finds it, is the one `MostLiquidFirst`
describes. -/
theorem mostLiquidFirst_of_find? {p : Decimal} {l : Float}
    (hfind : (pairs.filterMap pairQuote).find? (fun a => (pairs.filterMap pairQuote).all fun b =>
      totalOrderKey b.1 ≤ totalOrderKey a.1) = some (l, p)) : MostLiquidFirst pairs p := by
  obtain ⟨htop, as, bs, hsplit, hbefore⟩ := List.find?_eq_some_iff_append.mp hfind
  obtain ⟨L₁, L₂, rfl, hL₁, hL₂⟩ := List.filterMap_eq_append_iff.mp hsplit
  obtain ⟨l₁, pair, l₂, rfl, hskip, hpair, -⟩ := List.filterMap_eq_cons_iff.mp hL₂
  obtain ⟨hl, hprice⟩ := pairQuote_eq_some_iff.mp hpair
  dsimp only at hl hprice
  subst hl
  -- every priced pair is at most as liquid as the chosen one
  have hle : ∀ b ∈ (L₁ ++ (l₁ ++ pair :: l₂)).filterMap pairQuote,
      totalOrderKey b.1 ≤ totalOrderKey (pairLiquidity pair) := fun b hb =>
    of_decide_eq_true (List.all_eq_true.mp htop b hb)
  refine ⟨L₁ ++ l₁, pair, l₂, by simp, hprice, fun q hq r hr => ?_, fun q hq r hr => ?_⟩
  · have hquote : pairQuote q = some (pairLiquidity q, r) := pairQuote_eq_some_iff.mpr ⟨rfl, hr⟩
    rcases List.mem_append.mp hq with hq | hq
    · -- a pair before the chosen one was passed over: some priced pair is more liquid
      have hmem : (pairLiquidity q, r) ∈ as := hL₁ ▸ List.mem_filterMap.mpr ⟨q, hq, hquote⟩
      obtain ⟨b, hb, hlt⟩ : ∃ b ∈ (L₁ ++ (l₁ ++ pair :: l₂)).filterMap pairQuote,
          totalOrderKey (pairLiquidity q) < totalOrderKey b.1 := by
        have hnot := hbefore _ hmem
        simpa only [Bool.not_eq_true', List.all_eq_false, decide_eq_true_eq, not_le] using hnot
      exact Int.lt_of_lt_of_le hlt (hle b hb)
    · -- a pair skipped before it has no usable price
      rw [hskip q hq] at hquote
      cases hquote
  · exact hle (pairLiquidity q, r)
      (List.mem_filterMap.mpr ⟨q, by simp [hq], pairQuote_eq_some_iff.mpr ⟨rfl, hr⟩⟩)

/-- The pair `MostLiquidFirst` describes is the one the parser finds. -/
theorem find?_of_mostLiquidFirst {p : Decimal} (h : MostLiquidFirst pairs p) :
    ∃ l, (pairs.filterMap pairQuote).find? (fun a => (pairs.filterMap pairQuote).all fun b =>
      totalOrderKey b.1 ≤ totalOrderKey a.1) = some (l, p) := by
  obtain ⟨pre, pair, post, rfl, hprice, hpre, hpost⟩ := h
  have hpair : pairQuote pair = some (pairLiquidity pair, p) :=
    pairQuote_eq_some_iff.mpr ⟨rfl, hprice⟩
  have hsplit : (pre ++ pair :: post).filterMap pairQuote =
      pre.filterMap pairQuote ++ (pairLiquidity pair, p) :: post.filterMap pairQuote := by
    rw [List.filterMap_append, List.filterMap_cons_some hpair]
  -- the chosen pair is at least as liquid as every priced pair
  have htop : ∀ b ∈ (pre ++ pair :: post).filterMap pairQuote,
      totalOrderKey b.1 ≤ totalOrderKey (pairLiquidity pair) := fun b hb => by
    obtain ⟨q, hq, hb1, hr⟩ := mem_filterMap_pairQuote.mp hb
    rw [hb1]
    rcases List.mem_append.mp hq with hq | hq
    · exact Int.le_of_lt (hpre q hq b.2 hr)
    · rcases List.mem_cons.mp hq with rfl | hq
      · exact Int.le_refl _
      · exact hpost q hq b.2 hr
  refine ⟨pairLiquidity pair, List.find?_eq_some_iff_append.mpr
    ⟨List.all_eq_true.mpr fun b hb => decide_eq_true (htop b hb), _, _, hsplit, fun a ha => ?_⟩⟩
  -- a priced pair before the chosen one is less liquid, so it is not the most liquid
  obtain ⟨q, hq, ha1, hr⟩ := mem_filterMap_pairQuote.mp ha
  have hlt := hpre q hq a.2 hr
  rw [← ha1] at hlt
  have hmem : (pairLiquidity pair, p) ∈ (pre ++ pair :: post).filterMap pairQuote := by
    rw [hsplit]
    simp
  simp only [Bool.not_eq_true', List.all_eq_false, decide_eq_true_eq, not_le]
  exact ⟨_, hmem, hlt⟩

/-- The first of the most liquid priced pairs is the one `MostLiquidFirst` describes. -/
theorem find?_mostLiquid_iff {p : Decimal} :
    (∃ l, (pairs.filterMap pairQuote).find? (fun a => (pairs.filterMap pairQuote).all fun b =>
      totalOrderKey b.1 ≤ totalOrderKey a.1) = some (l, p)) ↔ MostLiquidFirst pairs p := by
  constructor
  · rintro ⟨l, hfind⟩
    exact mostLiquidFirst_of_find? hfind
  · exact find?_of_mostLiquidFirst

/-- A body that does not have the response's shape is an invalid response. -/
theorem parsePairs_of_read_error {body token : String} {e : JsonError}
    (h : pairsShape.read body = .error e) :
    parsePairs body token = .error (.invalidResponse ("pairs: " ++ e.render)) := by
  unfold parsePairs
  rw [h]
  rfl

/-- Once the body is read, the pairs parser answers the price of the first of the most liquid
pairs with a usable price, and `noPrice` exactly when no pair has a usable price. -/
theorem parsePairs_of_read_ok {body token : String} {response : Json}
    (h : pairsShape.read body = .ok response) :
    (∀ p, parsePairs body token = .ok p ↔ MostLiquidFirst (response.itemsAt "pairs") p) ∧
    (parsePairs body token = .error (.noPrice token) ↔
      ∀ q ∈ response.itemsAt "pairs", ∀ r, ¬ PricedAbove q r) ∧
    ∀ d, parsePairs body token ≠ .error (.invalidResponse d) := by
  unfold parsePairs
  rw [h]
  simp only [bind, Except.bind, pure, Except.pure,
    show ((response.get? "pairs").bind Json.items?).getD [] = response.itemsAt "pairs" from rfl]
  split
  · -- the first pair after sorting: the first of the most liquid
    rename_i l q hq
    rw [head?_mergeSort_desc] at hq
    have hchosen : MostLiquidFirst (response.itemsAt "pairs") q := find?_mostLiquid_iff.mp ⟨l, hq⟩
    have hunique : ∀ p, MostLiquidFirst (response.itemsAt "pairs") p → p = q := fun p hp => by
      obtain ⟨l', hp'⟩ := find?_mostLiquid_iff.mpr hp
      exact (Prod.ext_iff.mp (Option.some.inj (hp'.symm.trans hq))).2
    obtain ⟨pre, pair, post, hsplit, hprice, -, -⟩ := hchosen
    refine ⟨fun p => ⟨fun hp => ?_, fun hp => by rw [hunique p hp]⟩,
      ⟨fun herr => (by cases herr), fun hnone => absurd hprice (hnone pair (by simp [hsplit]) q)⟩,
      fun d herr => (by cases herr)⟩
    cases hp
    exact find?_mostLiquid_iff.mp ⟨l, hq⟩
  · -- nothing after sorting: no pair had a usable price
    rename_i hq
    have hnil := List.head?_eq_none_iff.mp hq
    have hempty : (response.itemsAt "pairs").filterMap pairQuote = [] :=
      List.eq_nil_of_length_eq_zero (by rw [← (List.mergeSort_perm _ _).length_eq, hnil]; rfl)
    have hnone : ∀ q ∈ response.itemsAt "pairs", ∀ r, ¬ PricedAbove q r := fun q hq r hr => by
      have hmem := mem_filterMap_pairQuote (x := (pairLiquidity q, r)) |>.mpr ⟨q, hq, rfl, hr⟩
      rw [hempty] at hmem
      cases hmem
    refine ⟨fun p => ⟨fun hp => (by cases hp), fun hp => ?_⟩, ⟨fun _ => hnone, fun _ => rfl⟩,
      fun d herr => (by cases herr)⟩
    obtain ⟨pre, pair, post, hsplit, hprice, -, -⟩ := hp
    exact absurd hprice (hnone pair (by simp [hsplit]) p)

end Pairs

/-! ## Both parsers -/

/-- A parser that reads the body before it looks for a price answers what the read response
gives, and an invalid response exactly when the body cannot be read. -/
theorem answers_after_read {parse : Except OracleError Decimal} {read : Except JsonError Json}
    {Price : Json → Decimal → Prop} {Absent : Json → Prop} {tag token : String}
    (herror : ∀ e, read = .error e → parse = .error (.invalidResponse (tag ++ e.render)))
    (hok : ∀ response, read = .ok response →
      (∀ p, parse = .ok p ↔ Price response p) ∧
        (parse = .error (.noPrice token) ↔ Absent response) ∧ ∀ d, parse ≠ .error (.invalidResponse d)) :
    (∀ p, parse = .ok p ↔ ∃ response, read = .ok response ∧ Price response p) ∧
    (parse = .error (.noPrice token) ↔ ∃ response, read = .ok response ∧ Absent response) ∧
    ((∃ d, parse = .error (.invalidResponse d)) ↔ ∃ e, read = .error e) := by
  cases read with
  | error e =>
    -- nothing was read: the parser answers the invalid response, and nothing else
    have hparse := herror e rfl
    refine ⟨fun p => ⟨fun h => ?_, ?_⟩, ⟨fun h => ?_, ?_⟩,
      ⟨fun _ => ⟨e, rfl⟩, fun _ => ⟨_, hparse⟩⟩⟩
    · rw [hparse] at h
      cases h
    · rintro ⟨_, h, -⟩
      cases h
    · rw [hparse] at h
      cases h
    · rintro ⟨_, h, -⟩
      cases h
  | ok response =>
    obtain ⟨hprice, habsent, hvalid⟩ := hok response rfl
    refine ⟨fun p => (hprice p).trans ⟨fun h => ⟨response, rfl, h⟩, ?_⟩,
      habsent.trans ⟨fun h => ⟨response, rfl, h⟩, ?_⟩, ⟨?_, ?_⟩⟩
    · rintro ⟨_, h, hp⟩
      cases h
      exact hp
    · rintro ⟨_, h, hp⟩
      cases h
      exact hp
    · rintro ⟨d, hd⟩
      exact absurd hd (hvalid d)
    · rintro ⟨_, h⟩
      cases h

/-- Price parsing picks the specified entry. The rates parser answers the USD price of the
token's entry, or of the only entry, and the pairs parser the price of the first of the most
liquid pairs with a usable price. Each answers `noPrice` exactly when the response has no such
price above zero, and `invalidResponse` exactly when the body does not have the response's
shape. -/
theorem quote_parsers_pick_specified_price (body token : String) :
    (∀ p, parseRates body token = .ok p ↔
      ∃ response, ratesShape.read body = .ok response ∧ RatesPrice response token p) ∧
    (parseRates body token = .error (.noPrice token) ↔
      ∃ response, ratesShape.read body = .ok response ∧ ∀ p, ¬ RatesPrice response token p) ∧
    ((∃ d, parseRates body token = .error (.invalidResponse d)) ↔
      ∃ e, ratesShape.read body = .error e) ∧
    (∀ p, parsePairs body token = .ok p ↔
      ∃ response, pairsShape.read body = .ok response ∧
        MostLiquidFirst (response.itemsAt "pairs") p) ∧
    (parsePairs body token = .error (.noPrice token) ↔
      ∃ response, pairsShape.read body = .ok response ∧
        ∀ q ∈ response.itemsAt "pairs", ∀ r, ¬ PricedAbove q r) ∧
    ((∃ d, parsePairs body token = .error (.invalidResponse d)) ↔
      ∃ e, pairsShape.read body = .error e) := by
  obtain ⟨hr₁, hr₂, hr₃⟩ := answers_after_read (fun _ => parseRates_of_read_error)
    (fun _ h => @parseRates_of_read_ok _ token _ h)
  obtain ⟨hp₁, hp₂, hp₃⟩ := answers_after_read (fun _ => parsePairs_of_read_error)
    (fun _ h => @parsePairs_of_read_ok _ token _ h)
  exact ⟨hr₁, hr₂, hr₃, hp₁, hp₂, hp₃⟩

end PoolTreasury
