import Mathlib.Algebra.Order.Field.Rat
import PoolTreasury.Proofs.Decimal.Value
import PoolTreasury.Market.Fallback

/-! # The first positive price wins

A price lookup asks its sources in order. To see which sources it asks, each source here has a
fixed outcome (a price, a failure, or no answer in time) and notes its name when it is asked
(`PriceSource.noting`); `askSources` runs the lookup over such sources from an empty list of
names, with the log dropped.

A source is usable when it answers a price above zero. The lookup returns the price of the
first usable source and asks no source after it (`askSources_first_usable`); when no source is
usable it asks them all and fails with `allSourcesFailed` (`askSources_none_usable`). Every
list of sources is of one of these two shapes (`usable_split`), so the main statement,
`fallbackLookup_first_positive`, says what the lookup does for every list.
-/

namespace PoolTreasury

namespace SourceOutcome

/-- The outcome settles a lookup: it is a price above zero. -/
def Usable : SourceOutcome → Prop
  | .answered p => 0 < p.value
  | _ => False

instance : DecidablePred Usable
  | .answered p => inferInstanceAs (Decidable (0 < p.value))
  | .failed _ => isFalse id
  | .timedOut => isFalse id

end SourceOutcome

/-- A source with a fixed outcome that notes its name when it is asked. -/
def PriceSource.noting (name : String) (outcome : SourceOutcome) :
    PriceSource (StateM (List String)) where
  name := name
  attempt _ := do
    modify (· ++ [name])
    pure outcome

/-- A log that drops every event, over a state that lists the sources asked. -/
@[reducible] def namesOnly : MonadLog (StateM (List String)) := ⟨fun _ => pure ()⟩

/-- The lookup over sources with fixed outcomes, from a list of names already asked: its result
and the names of the sources asked, in the order asked. -/
def askFrom (token : String) (sources : List (String × SourceOutcome)) (asked : List String) :
    Except OracleError Decimal × List String :=
  (@fallbackLookup _ _ namesOnly token (sources.map fun s => PriceSource.noting s.1 s.2)).run asked

/-- The lookup over sources with fixed outcomes, from no source asked. -/
def askSources (token : String) (sources : List (String × SourceOutcome)) :
    Except OracleError Decimal × List String :=
  askFrom token sources []

section Steps

variable (token : String) (rest : List (String × SourceOutcome))

theorem askFrom_nil (asked : List String) :
    askFrom token [] asked = (.error (.allSourcesFailed token), asked) := rfl

/-- A usable source ends the lookup with its price, once it has been asked. -/
theorem askFrom_cons_usable {name : String} {p : Decimal} (hp : 0 < p.value)
    (asked : List String) :
    askFrom token ((name, .answered p) :: rest) asked = (.ok p, asked ++ [name]) := by
  have hlt : Decimal.zero < p := Decimal.lt_iff_value_lt.mpr (by rwa [Decimal.value_zero])
  simp [askFrom, fallbackLookup, PriceSource.noting, hlt]
  rfl

/-- Any other source is asked, and the lookup goes on with the rest. -/
theorem askFrom_cons_unusable {name : String} {o : SourceOutcome} (ho : ¬ o.Usable)
    (asked : List String) :
    askFrom token ((name, o) :: rest) asked = askFrom token rest (asked ++ [name]) := by
  cases o with
  | answered p =>
    have hle : ¬ Decimal.zero < p := by
      rw [Decimal.lt_iff_value_lt, Decimal.value_zero]
      exact ho
    simp [askFrom, fallbackLookup, PriceSource.noting, hle]
    rfl
  | failed e =>
    simp [askFrom, fallbackLookup, PriceSource.noting]
    rfl
  | timedOut =>
    simp [askFrom, fallbackLookup, PriceSource.noting]
    rfl

end Steps

section Runs

variable {token : String}

/-- Past sources that are not usable, the first usable one settles the lookup, and no source
after it is asked. -/
theorem askFrom_first_usable {n : String} {p : Decimal} (post : List (String × SourceOutcome))
    (hp : 0 < p.value) :
    ∀ (pre : List (String × SourceOutcome)) (asked : List String), (∀ x ∈ pre, ¬ x.2.Usable) →
      askFrom token (pre ++ (n, .answered p) :: post) asked =
        (.ok p, asked ++ pre.map Prod.fst ++ [n])
  | [], asked, _ => by simpa using askFrom_cons_usable token post hp asked
  | x :: pre, asked, hpre => by
    rw [List.cons_append, askFrom_cons_unusable token _ (hpre x List.mem_cons_self),
      askFrom_first_usable post hp pre _ fun y hy => hpre y (List.mem_cons_of_mem x hy)]
    simp

/-- With no usable source, every source is asked and the lookup fails. -/
theorem askFrom_none_usable :
    ∀ (sources : List (String × SourceOutcome)) (asked : List String),
      (∀ x ∈ sources, ¬ x.2.Usable) →
      askFrom token sources asked =
        (.error (.allSourcesFailed token), asked ++ sources.map Prod.fst)
  | [], asked, _ => by simp [askFrom_nil]
  | x :: rest, asked, h => by
    rw [askFrom_cons_unusable token rest (h x List.mem_cons_self),
      askFrom_none_usable rest _ fun y hy => h y (List.mem_cons_of_mem x hy)]
    simp

/-- A list of sources has no usable one, or splits at its first usable one. -/
theorem usable_split :
    ∀ (sources : List (String × SourceOutcome)), (∀ x ∈ sources, ¬ x.2.Usable) ∨
      ∃ pre n p post, sources = pre ++ (n, .answered p) :: post ∧
        (∀ x ∈ pre, ¬ x.2.Usable) ∧ 0 < p.value
  | [] => .inl fun _ h => absurd h List.not_mem_nil
  | (n, o) :: rest => by
    by_cases ho : o.Usable
    · -- the head is the first usable source
      cases o with
      | answered p => exact .inr ⟨[], n, p, rest, rfl, fun _ h => absurd h List.not_mem_nil, ho⟩
      | failed e => exact absurd ho id
      | timedOut => exact absurd ho id
    · rcases usable_split rest with hnone | ⟨pre, m, p, post, rfl, hpre, hp⟩
      · refine .inl fun x hx => ?_
        rcases List.mem_cons.mp hx with rfl | hx
        · exact ho
        · exact hnone x hx
      · refine .inr ⟨(n, o) :: pre, m, p, post, rfl, fun x hx => ?_, hp⟩
        rcases List.mem_cons.mp hx with rfl | hx
        · exact ho
        · exact hpre x hx

/-- From no source asked: the first usable source's price, after asking the sources up to it. -/
theorem askSources_first_usable {pre post : List (String × SourceOutcome)} {n : String}
    {p : Decimal} (hpre : ∀ x ∈ pre, ¬ x.2.Usable) (hp : 0 < p.value) :
    askSources token (pre ++ (n, .answered p) :: post) = (.ok p, pre.map Prod.fst ++ [n]) := by
  unfold askSources
  simpa using @askFrom_first_usable token n p post hp pre [] hpre

/-- From no source asked: with no usable source, all are asked and the lookup fails. -/
theorem askSources_none_usable {sources : List (String × SourceOutcome)}
    (h : ∀ x ∈ sources, ¬ x.2.Usable) :
    askSources token sources = (.error (.allSourcesFailed token), sources.map Prod.fst) := by
  unfold askSources
  simpa using @askFrom_none_usable token sources [] h

end Runs

/-- Ordered fallback: the lookup returns the price of the first source, in list order, that
answers a price above zero, and asks no source after it; it fails with `allSourcesFailed`
exactly when no source answers so, after asking them all. So every price it returns is above
zero. -/
theorem fallbackLookup_first_positive (token : String) :
    (∀ pre n p post, (∀ x ∈ pre, ¬ SourceOutcome.Usable x.2) → 0 < p.value →
      askSources token (pre ++ (n, .answered p) :: post) = (.ok p, pre.map Prod.fst ++ [n])) ∧
    (∀ sources, (∀ x ∈ sources, ¬ SourceOutcome.Usable x.2) →
      askSources token sources = (.error (.allSourcesFailed token), sources.map Prod.fst)) ∧
    (∀ sources, (askSources token sources).1 = .error (.allSourcesFailed token) ↔
      ∀ x ∈ sources, ¬ SourceOutcome.Usable x.2) ∧
    ∀ sources p, (askSources token sources).1 = .ok p → 0 < p.value := by
  refine ⟨fun _ _ _ _ => askSources_first_usable, fun _ => askSources_none_usable,
    fun sources => ⟨fun herr => ?_, fun h => by rw [askSources_none_usable h]⟩,
    fun sources q hq => ?_⟩
  · -- a usable source would have given its price
    rcases usable_split sources with h | ⟨pre, n, p, post, rfl, hpre, hp⟩
    · exact h
    · rw [askSources_first_usable hpre hp] at herr
      cases herr
  · rcases usable_split sources with h | ⟨pre, n, p, post, rfl, hpre, hp⟩
    · rw [askSources_none_usable h] at hq
      cases hq
    · rw [askSources_first_usable hpre hp] at hq
      cases hq
      exact hp

/-- A failed source and a zero price are passed over, ten is taken, and the source after it is
never asked. -/
theorem askSources_passes_failure_and_zero :
    let pre : List (String × SourceOutcome) :=
      [("down", .failed (.noPrice "0:t")), ("zero", .answered .zero)]
    (∀ x ∈ pre, ¬ SourceOutcome.Usable x.2) ∧ 0 < Decimal.ten.value ∧
      askSources "0:t" (pre ++ [("ok", .answered .ten), ("late", .answered .one)]) =
        (.ok .ten, ["down", "zero", "ok"]) := by
  intro pre
  have hpre : ∀ x ∈ pre, ¬ SourceOutcome.Usable x.2 := by
    simp [pre, SourceOutcome.Usable]
  have hten : 0 < Decimal.ten.value := by
    norm_num [Decimal.value, Decimal.signed, Decimal.ten]
  exact ⟨hpre, hten, (fallbackLookup_first_positive "0:t").1 pre "ok" .ten _ hpre hten⟩

end PoolTreasury
