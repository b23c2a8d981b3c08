import Mathlib.Data.List.Induction
import PoolTreasury.Proofs.Commands.FailingStore

/-! # Restarting from the saved ingestion cursor

The pipeline holds a transaction before it queues its request. The pipeline, for a transaction
it does not queue, and the processor, once it has applied a request, release it; each release
saves the new safe point when it is past the one saved before, and the save may fail. Here the
calls are made one after the other against the world of the processor, whose store may refuse
any call.

The feed delivers logical times in ascending order, from past the point a node was started
from: each time held is above every time passed to the cursor before it (`FeedOrdered`). Under
that order the cursor tracks its calls (`CursorTracks`): the held list is the held and not yet
released times, ascending; the highest time seen is the largest passed; the saved point is
below every held time and at most the highest seen; and the store persists the saved point, or,
before the first save, the point the node started from. Main statement
(`cursor_restart_safe`): the persisted cursor never moves back, stays below every held time,
so that a node restarted from it fetches them again, and equals the largest time seen after a
release that leaves nothing held and whose save the store takes.
-/

namespace PoolTreasury

/-! ## The held list and the highest time seen -/

theorem mem_insertAscending {x y : Nat} {l : List Nat} :
    x ∈ insertAscending y l ↔ x = y ∨ x ∈ l := by
  fun_induction insertAscending y l with
  | case1 => simp
  | case2 z zs => simp
  | case3 z zs => simp
  | case4 z zs _ _ ih => simp only [List.mem_cons, ih, or_left_comm]

/-- Inserting keeps the held list ascending and without repeats. -/
theorem pairwise_insertAscending {y : Nat} {l : List Nat} (h : l.Pairwise (· < ·)) :
    (insertAscending y l).Pairwise (· < ·) := by
  fun_induction insertAscending y l with
  | case1 => simp
  | case2 z zs hlt =>
    refine List.Pairwise.cons (fun a ha => ?_) h
    rcases List.mem_cons.1 ha with rfl | ha
    · exact hlt
    · exact Nat.lt_trans hlt (List.rel_of_pairwise_cons h ha)
  | case3 => exact h
  | case4 z zs hlt hne ih =>
    obtain ⟨hz, hzs⟩ := List.pairwise_cons.1 h
    refine List.Pairwise.cons (fun a ha => ?_) (ih hzs)
    rcases mem_insertAscending.1 ha with rfl | ha
    · omega
    · exact hz a ha

theorem maxSeen_max? (l : List Nat) (x : Nat) : maxSeen l.max? x = (l ++ [x]).max? := by
  cases l with
  | nil => rfl
  | cons a as =>
    rw [List.cons_append, List.max?_cons', List.max?_cons', List.foldl_append]
    rfl

theorem le_of_max?_eq {l : List Nat} {m x : Nat} (h : l.max? = some m) (hx : x ∈ l) : x ≤ m :=
  (List.max?_eq_some_iff.1 h).2 x hx

namespace CursorState

variable (c : CursorState) (lt : Nat)

/-- The safe point is one below the lowest held time, or the highest seen when nothing is
held. -/
theorem safePoint_eq_some {p : Nat} :
    c.safePoint = some p ↔ (c.held = [] ∧ c.seen = some p) ∨ c.held.head? = some (p + 1) := by
  unfold safePoint
  split
  · next first rest hheld =>
    simp only [hheld, List.head?_cons, Option.some.injEq, reduceCtorEq, false_and, false_or]
    split <;> simp only [reduceCtorEq, false_iff, Option.some.injEq] <;> omega
  · next hheld => simp [hheld]

/-- The safe point is below every held time, the held list being ascending. -/
theorem safePoint_lt_held {p : Nat} (hsorted : c.held.Pairwise (· < ·))
    (hp : c.safePoint = some p) : ∀ x ∈ c.held, p < x := by
  intro x hx
  rcases (safePoint_eq_some c).1 hp with ⟨hnil, -⟩ | hhead
  · simp [hnil] at hx
  · -- the lowest held time is one above the point
    obtain ⟨rest, hcons⟩ := List.head?_eq_some_iff.1 hhead
    rw [hcons] at hx hsorted
    rcases List.mem_cons.1 hx with rfl | hx
    · omega
    · have := List.rel_of_pairwise_cons hsorted hx
      omega

/-- The safe point was reached, when every held time was seen. -/
theorem safePoint_le_seen {p : Nat} (hheld : ∀ x ∈ c.held, ∃ m, c.seen = some m ∧ x ≤ m)
    (hp : c.safePoint = some p) : ∃ m, c.seen = some m ∧ p ≤ m := by
  rcases (safePoint_eq_some c).1 hp with ⟨-, hsp⟩ | hhead
  · exact ⟨p, hsp, Nat.le_refl p⟩
  · obtain ⟨m, hm, hxm⟩ := hheld _ (List.mem_of_head? hhead)
    exact ⟨m, hm, by omega⟩

theorem release_fst :
    (c.release lt).1 = { c with held := c.held.erase lt, seen := maxSeen c.seen lt } := by
  unfold release
  dsimp only
  split
  · rfl
  · split
    · split <;> rfl
    · rfl

/-- A release offers its safe point for saving only when it is past the saved one. -/
theorem release_snd_eq_some {p : Nat} (h : (c.release lt).2 = some p) :
    (c.release lt).1.safePoint = some p ∧ ∀ s, c.saved = some s → s < p := by
  revert h
  unfold release
  dsimp only
  split
  · simp
  · next q hq =>
    split
    · next s hs =>
      split
      · simp
      · intro h
        cases h
        exact ⟨hq, fun s' hs' => by simp_all⟩
    · next hs => intro h; cases h; exact ⟨hq, fun s' hs' => by simp_all⟩

/-- A safe point a release does not offer is at most the saved one. -/
theorem release_snd_eq_none (h : (c.release lt).2 = none) :
    ∀ p, (c.release lt).1.safePoint = some p → ∃ s, c.saved = some s ∧ p ≤ s := by
  revert h
  unfold release
  dsimp only
  split
  · next hq => intro _ p hp; simp_all
  · next q hq =>
    split
    · next s hs =>
      split
      · next hle => intro _ p hp; simp_all
      · simp
    · simp

end CursorState

/-! ## Calls on the cursor -/

/-- A call on the ingestion cursor. -/
inductive CursorCall where
  | hold (lt : Nat)
  | release (lt : Nat)
deriving DecidableEq, Repr

namespace CursorCall

def lt : CursorCall → Nat
  | .hold lt | .release lt => lt

def isHold : CursorCall → Bool
  | .hold _ => true
  | .release _ => false

/-- The call, as the processor's world runs it. -/
def perform : CursorCall → CmdM Unit
  | .hold lt => holdCursor lt
  | .release lt => releaseCursor lt

end CursorCall

/-- Feed order: each time held is above every time passed to the cursor before it. -/
def FeedOrdered (calls : List CursorCall) : Prop :=
  calls.Pairwise fun earlier later => later.isHold = true → earlier.lt < later.lt

instance : DecidablePred FeedOrdered := fun calls =>
  inferInstanceAs (Decidable (calls.Pairwise _))

/-- `lt` was held, and has not been released since. -/
def Outstanding (calls : List CursorCall) (lt : Nat) : Prop :=
  ∃ pre rest, calls = pre ++ .hold lt :: rest ∧ .release lt ∉ rest

variable {calls : List CursorCall} {c : CursorCall}

theorem feedOrdered_append_singleton :
    FeedOrdered (calls ++ [c]) ↔ FeedOrdered calls ∧ (c.isHold = true → ∀ d ∈ calls, d.lt < c.lt) := by
  simp only [FeedOrdered, List.pairwise_append, List.pairwise_singleton, List.mem_singleton,
    forall_eq, true_and]
  exact and_congr_right fun _ => ⟨fun h hc d hd => h d hd hc, fun h d hd hc => h hc d hd⟩

theorem not_outstanding_nil (x : Nat) : ¬ Outstanding [] x := by
  rintro ⟨pre, rest, h, -⟩
  simp at h

theorem Outstanding.hold_mem {x : Nat} (h : Outstanding calls x) : CursorCall.hold x ∈ calls := by
  obtain ⟨pre, rest, rfl, -⟩ := h
  simp

theorem Outstanding.le_max? {x : Nat} (h : Outstanding calls x) :
    ∃ m, (calls.map CursorCall.lt).max? = some m ∧ x ≤ m := by
  have hmem : x ∈ calls.map CursorCall.lt := List.mem_map.2 ⟨_, h.hold_mem, rfl⟩
  obtain ⟨m, hm⟩ := Option.ne_none_iff_exists'.1 (mt List.max?_eq_none_iff.1 (List.ne_nil_of_mem hmem))
  exact ⟨m, hm, le_of_max?_eq hm hmem⟩

/-- A time is held after one more call when the call holds it, or it was held before and the
call does not release it. -/
theorem outstanding_append_singleton {x : Nat} :
    Outstanding (calls ++ [c]) x ↔ c = .hold x ∨ (Outstanding calls x ∧ c ≠ .release x) := by
  constructor
  · rintro ⟨pre, rest, h, hr⟩
    rcases List.eq_nil_or_concat rest with rfl | ⟨rest', d, rfl⟩
    · obtain ⟨-, hc⟩ := List.append_inj' h rfl
      exact .inl (List.singleton_inj.1 hc)
    · simp only [List.concat_eq_append] at h hr
      have h' : calls ++ [c] = (pre ++ CursorCall.hold x :: rest') ++ [d] := by rw [h]; simp
      obtain ⟨hcalls, hcd⟩ := List.append_inj' h' rfl
      cases List.singleton_inj.1 hcd
      simp only [List.mem_append, List.mem_singleton, not_or] at hr
      exact .inr ⟨⟨pre, rest', hcalls, hr.1⟩, fun h => hr.2 h.symm⟩
  · rintro (rfl | ⟨⟨pre, rest, rfl, hr⟩, hne⟩)
    · exact ⟨calls, [], rfl, by simp⟩
    · refine ⟨pre, rest ++ [c], by simp, ?_⟩
      simp only [List.mem_append, List.mem_singleton, not_or]
      exact ⟨hr, fun h => hne h.symm⟩

/-! ## One call in the processor's world -/

namespace CmdWorld

/-- The world after the calls, made one after the other. -/
def afterCalls (w : CmdWorld) (calls : List CursorCall) : CmdWorld :=
  calls.foldl (fun w c => (c.perform.run.run w).2) w

theorem afterCalls_append_singleton (w : CmdWorld) :
    w.afterCalls (calls ++ [c]) = (c.perform.run.run (w.afterCalls calls)).2 := by
  simp [afterCalls]

/-- What a release leaves: the time released and the highest time seen raised to it; and the
release's safe point saved and persisted, or else the saved and persisted points kept, which
happens only when there was no point past the saved one or the store refused the save. -/
def ReleasedCursor (lt : Nat) (w w' : CmdWorld) : Prop :=
  w'.cursor.held = w.cursor.held.erase lt ∧ w'.cursor.seen = maxSeen w.cursor.seen lt ∧
    ((w'.cursor.saved = w.cursor.saved ∧ w'.tables.cursor = w.tables.cursor ∧
        ∀ p, (w.cursor.release lt).2 = some p → w.storeFault w.storeCalls ≠ none) ∨
      ∃ p, (w.cursor.release lt).2 = some p ∧ w'.cursor.saved = some p ∧
        w'.tables.cursor = some p)

end CmdWorld

theorem releaseCursor_releases (lt : Nat) (w : CmdWorld) :
    Goes (releaseCursor lt : CmdM Unit) w (fun _ w' => w.ReleasedCursor lt w')
      (fun _ _ => False) := by
  have hfst := w.cursor.release_fst lt
  unfold releaseCursor
  rw [goes_bind, goes_cursorState]
  rcases hrel : w.cursor.release lt with ⟨s, point⟩
  rw [hrel] at hfst
  cases hfst
  dsimp only
  rw [goes_bind, goes_setCursorState]
  cases point with
  | none => exact ⟨rfl, rfl, .inl ⟨rfl, rfl, fun p h => by simp [hrel] at h⟩⟩
  | some p =>
    dsimp only
    rw [goes_bind]
    show Goes (CmdWorld.storeCall _ _) _ _ _
    rw [goes_storeCall]
    split
    -- the store refused the save: the saved and persisted points stay
    · next e hfault =>
      have hfault : w.storeFault w.storeCalls = some e := hfault
      exact ⟨rfl, rfl, .inl ⟨rfl, rfl, fun _ _ => by simp [hfault]⟩⟩
    · exact ⟨rfl, rfl, .inr ⟨p, by rw [hrel], rfl, rfl⟩⟩

/-! ## What the cursor keeps of its calls -/

/-- The cursor's account of the calls made on it, for a node started from the persisted point
`start`. -/
structure CursorTracks (start : Option Nat) (calls : List CursorCall) (w : CmdWorld) : Prop where
  /-- The held list is ascending, so its head is the lowest held time. -/
  sorted : w.cursor.held.Pairwise (· < ·)
  /-- The held times are those held and not released since. -/
  mem_held : ∀ x, x ∈ w.cursor.held ↔ Outstanding calls x
  /-- The highest time seen is the largest passed to the cursor. -/
  seen : w.cursor.seen = (calls.map CursorCall.lt).max?
  /-- The saved point was reached. -/
  saved_le : ∀ s, w.cursor.saved = some s → ∃ m, w.cursor.seen = some m ∧ s ≤ m
  /-- The saved point is below every held time. -/
  saved_lt : ∀ s, w.cursor.saved = some s → ∀ x ∈ w.cursor.held, s < x
  /-- The store persists the saved point, or, before the first save, the starting point. -/
  persisted : w.tables.cursor = w.cursor.saved ∨ w.cursor.saved = none ∧ w.tables.cursor = start

namespace CursorTracks

variable {start : Option Nat} {w w' : CmdWorld} {lt : Nat}

theorem fresh (hfresh : w.cursor = {}) : CursorTracks w.tables.cursor [] w where
  sorted := by simp [hfresh]
  mem_held x := by simp [hfresh, not_outstanding_nil]
  seen := by simp [hfresh]
  saved_le s hs := by simp [hfresh] at hs
  saved_lt s hs := by simp [hfresh] at hs
  persisted := .inr ⟨by simp [hfresh], rfl⟩

/-- A hold in feed order puts the time on the held list, above the saved point. -/
theorem hold (h : CursorTracks start calls w) (hfeed : ∀ d ∈ calls, d.lt < lt) :
    CursorTracks start (calls ++ [.hold lt]) { w with cursor := w.cursor.hold lt } where
  sorted := pairwise_insertAscending h.sorted
  mem_held x := by
    simp only [CursorState.hold, mem_insertAscending, outstanding_append_singleton, h.mem_held,
      CursorCall.hold.injEq, ne_eq, reduceCtorEq, not_false_eq_true, and_true]
    exact or_congr eq_comm Iff.rfl
  seen := by simp [CursorState.hold, h.seen, maxSeen_max?, CursorCall.lt]
  saved_le s hs := by
    obtain ⟨m, hm, hsm⟩ := h.saved_le s hs
    simp [CursorState.hold, hm, maxSeen]
    omega
  saved_lt s hs x hx := by
    obtain ⟨m, hm, hsm⟩ := h.saved_le s hs
    rcases mem_insertAscending.1 hx with rfl | hx
    · -- the time held is above everything seen so far, hence above the saved point
      have hmem := List.max?_mem (h.seen.symm.trans hm)
      obtain ⟨d, hd, rfl⟩ := List.mem_map.1 hmem
      exact Nat.lt_of_le_of_lt hsm (hfeed d hd)
    · exact h.saved_lt s hs x hx
  persisted := h.persisted

/-- A release keeps the account, whether its point is saved or not. -/
theorem release (h : CursorTracks start calls w) (hr : w.ReleasedCursor lt w') :
    CursorTracks start (calls ++ [.release lt]) w' := by
  obtain ⟨hheld, hseen, hsave⟩ := hr
  have hnodup : w.cursor.held.Nodup := h.sorted.imp Nat.ne_of_lt
  have hsorted : w'.cursor.held.Pairwise (· < ·) := hheld ▸ h.sorted.erase lt
  have hmem : ∀ x, x ∈ w'.cursor.held ↔ Outstanding (calls ++ [CursorCall.release lt]) x := by
    intro x
    rw [hheld, hnodup.mem_erase_iff, h.mem_held, outstanding_append_singleton]
    simp only [reduceCtorEq, false_or, ne_eq, CursorCall.release.injEq]
    exact and_comm.trans (and_congr_right fun _ => ⟨fun h => h ∘ Eq.symm, fun h => h ∘ Eq.symm⟩)
  have hseen' : w'.cursor.seen = ((calls ++ [CursorCall.release lt]).map CursorCall.lt).max? := by
    simp [hseen, h.seen, maxSeen_max?, CursorCall.lt]
  -- the released state, whose safe point the release offers
  have hfst : (w.cursor.release lt).1.held = w'.cursor.held ∧
      (w.cursor.release lt).1.seen = w'.cursor.seen := by
    simp [CursorState.release_fst, hheld, hseen]
  have hseen_le : ∀ m, w.cursor.seen = some m → ∃ m', w'.cursor.seen = some m' ∧ m ≤ m' :=
    fun m hm => ⟨_, by simp [hseen, hm, maxSeen], Nat.le_max_left m lt⟩
  -- a point the release saves was seen, and is below every time still held
  have hpoint : ∀ p, (w.cursor.release lt).2 = some p →
      (∃ m, w'.cursor.seen = some m ∧ p ≤ m) ∧ ∀ x ∈ w'.cursor.held, p < x := by
    intro p hp
    have hsafe := (w.cursor.release_snd_eq_some lt hp).1
    have hseenAll : ∀ x ∈ (w.cursor.release lt).1.held,
        ∃ m, (w.cursor.release lt).1.seen = some m ∧ x ≤ m := by
      intro x hx
      rw [hfst.1] at hx
      obtain ⟨m, hm, hxm⟩ := ((hmem x).1 hx).le_max?
      exact ⟨m, hfst.2.trans (hseen'.trans hm), hxm⟩
    rw [← hfst.1, ← hfst.2]
    exact ⟨CursorState.safePoint_le_seen _ hseenAll hsafe,
      CursorState.safePoint_lt_held _ (hfst.1 ▸ hsorted) hsafe⟩
  refine ⟨hsorted, hmem, hseen', ?_, ?_, ?_⟩
  · rcases hsave with ⟨hsaved, -, -⟩ | ⟨p, hp, hsaved, -⟩
    · intro s hs
      obtain ⟨m, hm, hsm⟩ := h.saved_le s (hsaved ▸ hs)
      obtain ⟨m', hm', hmm'⟩ := hseen_le m hm
      exact ⟨m', hm', Nat.le_trans hsm hmm'⟩
    · intro s hs
      cases hsaved.symm.trans hs
      exact (hpoint p hp).1
  · rcases hsave with ⟨hsaved, -, -⟩ | ⟨p, hp, hsaved, -⟩
    · intro s hs x hx
      rw [hheld] at hx
      exact h.saved_lt s (hsaved ▸ hs) x (List.mem_of_mem_erase hx)
    · intro s hs
      cases hsaved.symm.trans hs
      exact (hpoint p hp).2
  · rcases hsave with ⟨hsaved, hpers, -⟩ | ⟨p, -, hsaved, hpers⟩
    · rw [hsaved, hpers]
      exact h.persisted
    · exact .inl (hpers.trans hsaved.symm)

/-- The persisted point is below every time still held: for a node started from `start`, above
which the feed delivers every time. -/
theorem persisted_lt (h : CursorTracks start calls w)
    (habove : ∀ q, start = some q → ∀ d ∈ calls, q < d.lt) {x : Nat} (hx : Outstanding calls x) :
    ∀ p, w.tables.cursor = some p → p < x := by
  intro p hp
  rcases h.persisted with hpers | ⟨-, hstart⟩
  · exact h.saved_lt p (hpers ▸ hp) x ((h.mem_held x).2 hx)
  · exact habove p (hstart ▸ hp) _ hx.hold_mem

/-- A release never moves the persisted point back: a point it saves is past the saved one,
and, for the first save, past the starting point. -/
theorem persisted_le_of_release (h : CursorTracks start calls w) (hr : w.ReleasedCursor lt w')
    (habove : ∀ q, start = some q → ∀ d ∈ calls ++ [CursorCall.release lt], q < d.lt) :
    ∀ p, w.tables.cursor = some p → ∃ q, w'.tables.cursor = some q ∧ p ≤ q := by
  intro p hp
  have h' := h.release hr
  obtain ⟨hheld, hseen, hsave⟩ := hr
  rcases hsave with ⟨-, hpers, -⟩ | ⟨q, hq, hsaved, hpers⟩
  · exact ⟨p, hpers.trans hp, Nat.le_refl p⟩
  refine ⟨q, hpers, ?_⟩
  rcases h.persisted with hold | ⟨hnone, hstart⟩
  · exact Nat.le_of_lt ((w.cursor.release_snd_eq_some lt hq).2 p (hold ▸ hp))
  -- the first save: the point is at least the lowest held time less one, or the highest seen
  have hpq := (CursorState.safePoint_eq_some _).1 (w.cursor.release_snd_eq_some lt hq).1
  rw [CursorState.release_fst] at hpq
  dsimp only at hpq
  rw [← hheld, ← hseen, h'.seen] at hpq
  have hbound := habove p (hstart ▸ hp)
  rcases hpq with ⟨-, hmax⟩ | hhead
  · have hmem : lt ∈ (calls ++ [CursorCall.release lt]).map CursorCall.lt := by simp [CursorCall.lt]
    have hlt : p < lt := hbound (.release lt) (by simp)
    exact Nat.le_trans (Nat.le_of_lt hlt) (le_of_max?_eq hmax hmem)
  · have hx := ((h'.mem_held _).1 (List.mem_of_head? hhead)).hold_mem
    have := hbound _ hx
    simp only [CursorCall.lt] at this
    omega

/-- Once a release leaves nothing held and the store takes its save, the persisted point is the
largest time seen. -/
theorem persisted_eq_max_of_release (h : CursorTracks start calls w) (hr : w.ReleasedCursor lt w')
    (hnone : ∀ x, ¬ Outstanding (calls ++ [CursorCall.release lt]) x)
    (hsave : w.storeFault w.storeCalls = none) :
    w'.tables.cursor = ((calls ++ [CursorCall.release lt]).map CursorCall.lt).max? := by
  have h' := h.release hr
  have hnil : w'.cursor.held = [] :=
    List.eq_nil_iff_forall_not_mem.2 fun x hx => hnone x ((h'.mem_held x).1 hx)
  obtain ⟨m, hm⟩ : ∃ m, ((calls ++ [CursorCall.release lt]).map CursorCall.lt).max? = some m :=
    Option.ne_none_iff_exists'.1 (by simp)
  -- nothing held: the release's safe point is the highest time seen
  have hsafe : (w.cursor.release lt).1.safePoint = some m := by
    rw [CursorState.safePoint_eq_some, CursorState.release_fst]
    exact .inl ⟨by rw [← hnil, hr.1], by rw [← hm, ← h'.seen, hr.2.1]⟩
  obtain ⟨-, -, ⟨hsaved, hpers, hrefused⟩ | ⟨q, hq, -, hpers⟩⟩ := hr
  · have hkept : (w.cursor.release lt).2 = none := by
      cases hpt : (w.cursor.release lt).2 with
      | none => rfl
      | some q => exact absurd hsave (hrefused q hpt)
    obtain ⟨s, hs, hms⟩ := w.cursor.release_snd_eq_none lt hkept m hsafe
    obtain ⟨m', hm', hsm'⟩ := h'.saved_le s (hsaved.trans hs)
    rw [h'.seen, hm, Option.some.injEq] at hm'
    rcases h'.persisted with hpers' | ⟨hnone', -⟩
    · rw [hpers', hsaved, hs, hm]
      congr 1
      omega
    · rw [hsaved, hs] at hnone'
      cases hnone'
  · rw [hpers, hm, ← (w.cursor.release_snd_eq_some lt hq).1, hsafe]

end CursorTracks

/-- The cursor's account holds after every sequence of calls in feed order, on a fresh cursor
over a store that persists the point the node started from. -/
theorem CursorTracks.afterCalls {w : CmdWorld} (hfresh : w.cursor = {}) (hfeed : FeedOrdered calls) :
    CursorTracks w.tables.cursor calls (w.afterCalls calls) := by
  induction calls using List.reverseRecOn with
  | nil => exact CursorTracks.fresh hfresh
  | append_singleton calls c ih =>
    obtain ⟨hfeed', hc⟩ := feedOrdered_append_singleton.1 hfeed
    rw [CmdWorld.afterCalls_append_singleton]
    cases c with
    | hold lt => exact (ih hfeed').hold (hc rfl)
    | release lt => exact (ih hfeed').release (releaseCursor_releases lt _).world

/-- Restarting from the persisted cursor is safe. Take a fresh cursor over a store that persists
the point the node was started from, if any, and calls in feed order, every time above that
point. After each call: the persisted cursor has not moved back; every time held and not yet
released is above it, so a node restarted from it fetches that transaction again; and after a
release that leaves nothing held, when the store takes the save, it is the largest time seen. -/
theorem cursor_restart_safe (w : CmdWorld) (hfresh : w.cursor = {}) (calls : List CursorCall)
    (c : CursorCall) (hfeed : FeedOrdered (calls ++ [c]))
    (habove : ∀ q, w.tables.cursor = some q → ∀ d ∈ calls ++ [c], q < d.lt) :
    let before := w.afterCalls calls
    let after := w.afterCalls (calls ++ [c])
    (∀ p, before.tables.cursor = some p → ∃ q, after.tables.cursor = some q ∧ p ≤ q) ∧
    (∀ x, Outstanding (calls ++ [c]) x → ∀ p, after.tables.cursor = some p → p < x) ∧
    (∀ lt, c = .release lt → (∀ x, ¬ Outstanding (calls ++ [c]) x) →
      before.storeFault before.storeCalls = none →
      after.tables.cursor = ((calls ++ [c]).map CursorCall.lt).max?) := by
  intro before after
  have hbefore : CursorTracks w.tables.cursor calls before :=
    CursorTracks.afterCalls hfresh (feedOrdered_append_singleton.1 hfeed).1
  have hafter : CursorTracks w.tables.cursor (calls ++ [c]) after :=
    CursorTracks.afterCalls hfresh hfeed
  have hstep : after = (c.perform.run.run before).2 := CmdWorld.afterCalls_append_singleton w
  refine ⟨?_, fun x hx => hafter.persisted_lt habove hx, ?_⟩
  · cases c with
    | hold lt =>
      -- a hold writes nothing to the store
      intro p hp
      exact ⟨p, by rw [hstep]; exact hp, Nat.le_refl p⟩
    | release lt =>
      rw [hstep]
      exact hbefore.persisted_le_of_release (releaseCursor_releases lt before).world habove
  · rintro lt rfl hnone hsave
    rw [hstep]
    exact hbefore.persisted_eq_max_of_release (releaseCursor_releases lt before).world hnone hsave

/-- The sequence of the cursor's own test, replayed after a restart from point 30 with a store
that takes every save. -/
theorem cursor_restart_safe_from_thirty :
    let w : CmdWorld :=
      { tables := { cursor := some 30 }, clock := ⟨0, 0⟩,
        outside := ⟨fun _ _ => none, fun _ _ => none, fun _ _ => none⟩,
        storeFault := fun _ => none, storeCalls := 0, lookups := 0, sends := 0, cursor := {},
        trail := [] }
    let calls : List CursorCall := [.release 40, .hold 42, .release 43, .release 44]
    let c := CursorCall.release 42
    w.cursor = {} ∧ FeedOrdered (calls ++ [c]) ∧
      (∀ q, w.tables.cursor = some q → ∀ d ∈ calls ++ [c], q < d.lt) ∧
      let before := w.afterCalls calls
      let after := w.afterCalls (calls ++ [c])
      (∀ p, before.tables.cursor = some p → ∃ q, after.tables.cursor = some q ∧ p ≤ q) ∧
      (∀ x, Outstanding (calls ++ [c]) x → ∀ p, after.tables.cursor = some p → p < x) ∧
      (∀ lt, c = .release lt → (∀ x, ¬ Outstanding (calls ++ [c]) x) →
        before.storeFault before.storeCalls = none →
        after.tables.cursor = ((calls ++ [c]).map CursorCall.lt).max?) := by
  intro w calls c
  have hfeed : FeedOrdered (calls ++ [c]) := by decide
  have habove : ∀ q, w.tables.cursor = some q → ∀ d ∈ calls ++ [c], q < d.lt := by
    intro q hq
    cases hq
    decide
  exact ⟨rfl, hfeed, habove, cursor_restart_safe w rfl calls c hfeed habove⟩

end PoolTreasury
