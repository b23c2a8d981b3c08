import PoolTreasury.Proofs.Effects.Quiet

/-! # The feed sends each logical time once, in order

A subscription polls the indexer page after page. Of each answer it keeps the transactions
past its cursor, sorted by logical time, and sends them; the cursor then stands at the last
time sent. A poll that fails, is refused or gets an answer that cannot be read sends nothing,
and the next poll asks again from the same cursor.

The indexer may answer each poll differently: with pages that overlap the ones before, that
come unsorted, or that list times already sent. The one thing assumed of an answer is that it
does not list a time twice (`Network.ListsEachLtOnce`). Main statement
(`feed_sends_in_lt_order`): whatever the polls get, every time sent is past the one the
subscription started from and the times sent strictly increase, so none is sent twice. What is
sent does not depend on the log, and a failed poll leaves everything to the polls after it.

The sends are followed in the quiet run (`FeedSettings.sentThrough`), which gives what every
run with a log gives.
-/

namespace PoolTreasury

/-- No answer of the network lists one logical time twice. -/
def Network.ListsEachLtOnce (net : Network) : Prop :=
  ∀ request response txs, net request = .ok response →
    listedTransactions response.body = .ok txs → (txs.map (·.lt)).Nodup

/-- An exchange that got an answer got it from the network. -/
theorem exchange_ok {net : Network} {method : HttpMethod} {endpoint path : String}
    {query headers : List (String × String)} {body : Option String} {response : HttpResponse}
    (h : exchange net method endpoint path query headers body = .ok response) :
    ∃ request, net request = .ok response := by
  unfold exchange at h
  cases hurl : requestUrl endpoint path query with
  | error e =>
    rw [hurl] at h
    cases h
  | ok url =>
    rw [hurl] at h
    exact ⟨_, h⟩

namespace FeedSettings

variable (s : FeedSettings) (account : String)

/-- The page a poll from `cursor` gets through `net`, its log aside. -/
def pageAt (net : Network) (cursor : Nat) : Except FeedError (List LedgerTransaction) :=
  @fetchPage Id _ quietLog net s account cursor

/-- What the polls through `nets` send from `cursor` on, their log aside. -/
def sentThrough (nets : List Network) (cursor : Nat) : List LedgerTransaction :=
  @pollThrough Id _ quietLog s account nets cursor

variable {s account}

/-! ## Polls only log -/

section Quiet

variable {σ : Type} {add : LogEvent → σ → σ}

theorem fetchPage_logsOnly (net : Network) (cursor : Nat) :
    LogsOnly add (@fetchPage _ _ (logInto add) net s account cursor)
      (@fetchPage _ _ quietLog net s account cursor) := by
  unfold fetchPage
  dsimp only
  split
  · exact LogsOnly.pure _
  · refine LogsOnly.ite (LogsOnly.pure _) ((parseTransactions_logsOnly _).bind fun r => ?_)
    cases r <;> exact LogsOnly.pure _

theorem pollThrough_logsOnly (nets : List Network) (cursor : Nat) :
    LogsOnly add (@pollThrough _ _ (logInto add) s account nets cursor)
      (@pollThrough _ _ quietLog s account nets cursor) := by
  induction nets generalizing cursor with
  | nil => exact LogsOnly.pure _
  | cons net nets ih =>
    unfold FeedSettings.pollThrough
    refine (fetchPage_logsOnly net cursor).bind fun r => ?_
    cases r with
    | ok page => exact (ih _).bind fun _ => LogsOnly.pure _
    | error e => exact LogsOnly.logAt_bind (ih cursor)

end Quiet

/-- Whatever was logged before, the polls send what the quiet run sends. -/
theorem pollThrough_run (nets : List Network) (cursor : Nat) (logs : List LogEvent) :
    ((s.pollThrough account nets cursor : Logged _).run logs).1 = s.sentThrough account nets cursor :=
  (pollThrough_logsOnly nets cursor).run_logged logs

/-! ## One poll -/

/-- No polls send nothing. -/
theorem sentThrough_nil (cursor : Nat) : s.sentThrough account [] cursor = [] := rfl

/-- A poll that gets no page sends nothing, and the next one asks from the same cursor. -/
theorem sentThrough_cons_error {net : Network} {nets : List Network} {cursor : Nat}
    {e : FeedError} (h : s.pageAt account net cursor = .error e) :
    s.sentThrough account (net :: nets) cursor = s.sentThrough account nets cursor := by
  unfold sentThrough pageAt at *
  rw [@FeedSettings.pollThrough.eq_2 Id _ quietLog]
  generalize @fetchPage Id _ quietLog net s account cursor = r at h
  cases h
  rfl

/-- A poll that gets a page sends it, and the next one asks from the page's last time. -/
theorem sentThrough_cons_ok {net : Network} {nets : List Network} {cursor : Nat}
    {page : List LedgerTransaction} (h : s.pageAt account net cursor = .ok page) :
    s.sentThrough account (net :: nets) cursor =
      page ++ s.sentThrough account nets ((page.getLast?.map (·.lt)).getD cursor) := by
  unfold sentThrough pageAt at *
  rw [@FeedSettings.pollThrough.eq_2 Id _ quietLog]
  generalize @fetchPage Id _ quietLog net s account cursor = r at h
  cases h
  rfl

/-- A page is what the network answered, less the times at or below the cursor, sorted by
time. -/
theorem pageAt_ok {net : Network} {cursor : Nat} {page : List LedgerTransaction}
    (h : s.pageAt account net cursor = .ok page) :
    ∃ request response txs, net request = .ok response ∧
      listedTransactions response.body = .ok txs ∧
      page = (txs.filter (·.lt > cursor)).mergeSort fun a b => a.lt ≤ b.lt := by
  unfold pageAt fetchPage at h
  dsimp only at h
  split at h
  · cases h
  · rename_i response hx
    obtain ⟨request, hnet⟩ := exchange_ok hx
    split at h
    · cases h
    · generalize hl : @parseTransactions Id _ quietLog response.body = r at h
      cases r with
      | error e => cases h
      | ok txs =>
        cases h
        exact ⟨request, response, txs, hnet, hl, rfl⟩

/-- Sorting by time and keeping the times past the cursor: when the answer lists each time
once, the page's times strictly increase and are all past the cursor. -/
theorem page_ascending {txs : List LedgerTransaction} (cursor : Nat)
    (hnodup : (txs.map (·.lt)).Nodup) :
    let page := (txs.filter (·.lt > cursor)).mergeSort fun a b => a.lt ≤ b.lt
    (∀ tx ∈ page, cursor < tx.lt) ∧ (page.map (·.lt)).Pairwise (· < ·) := by
  intro page
  have hsorted : page.Pairwise fun a b => a.lt ≤ b.lt := by
    have := @List.pairwise_mergeSort _ (fun a b : LedgerTransaction => decide (a.lt ≤ b.lt))
      (by intro a b c; simp only [decide_eq_true_eq]; omega)
      (by intro a b; simp only [Bool.or_eq_true, decide_eq_true_eq]; omega)
      (txs.filter (·.lt > cursor))
    simpa using this
  -- the times stay distinct through the filter and the sort, which only reorders
  have hdistinct : page.Pairwise fun a b => a.lt ≠ b.lt := by
    have hkept : (txs.filter (·.lt > cursor)).Pairwise fun a b => a.lt ≠ b.lt :=
      (List.pairwise_map.mp hnodup).filter _
    exact ((List.mergeSort_perm _ _).pairwise_iff fun h => Ne.symm h).mpr hkept
  refine ⟨fun tx htx => ?_, List.pairwise_map.mpr ?_⟩
  · have := (List.mem_filter.mp (List.mem_mergeSort.mp htx)).2
    simpa using this
  · exact (hsorted.and hdistinct).imp fun h => Nat.lt_of_le_of_ne h.1 h.2

/-- The last time of an ascending page is its largest, and past the cursor when there is one. -/
theorem le_lastLt {page : List LedgerTransaction} {cursor : Nat}
    (hpast : ∀ tx ∈ page, cursor < tx.lt) (hsorted : (page.map (·.lt)).Pairwise (· < ·)) :
    cursor ≤ (page.getLast?.map (·.lt)).getD cursor ∧
      ∀ tx ∈ page, tx.lt ≤ (page.getLast?.map (·.lt)).getD cursor := by
  cases hlast : page.getLast? with
  | none =>
    rw [List.getLast?_eq_none_iff] at hlast
    subst hlast
    simp
  | some last =>
    obtain ⟨init, rfl⟩ := List.getLast?_eq_some_iff.mp hlast
    simp only [Option.map_some, Option.getD_some]
    refine ⟨Nat.le_of_lt (hpast last (by simp)), fun tx htx => ?_⟩
    rcases List.mem_append.mp htx with hinit | hl
    · have := (List.pairwise_append.mp (List.pairwise_map.mp hsorted)).2.2 tx hinit last (by simp)
      exact Nat.le_of_lt this
    · exact (List.mem_singleton.mp hl) ▸ Nat.le_refl _

/-! ## The whole subscription -/

/-- By induction on the polls, the cursor carrying the invariant: everything sent is past the
cursor the polls start from, and the times sent strictly increase. -/
theorem sentThrough_ascending (nets : List Network) (honce : ∀ net ∈ nets, net.ListsEachLtOnce)
    (cursor : Nat) :
    (∀ tx ∈ s.sentThrough account nets cursor, cursor < tx.lt) ∧
      ((s.sentThrough account nets cursor).map (·.lt)).Pairwise (· < ·) := by
  induction nets generalizing cursor with
  | nil =>
    rw [sentThrough_nil]
    exact ⟨fun _ h => absurd h List.not_mem_nil, List.Pairwise.nil⟩
  | cons net nets ih =>
    have hrest := ih fun n hn => honce n (List.mem_cons_of_mem net hn)
    cases hpage : s.pageAt account net cursor with
    | error e =>
      rw [sentThrough_cons_error hpage]
      exact hrest cursor
    | ok page =>
      rw [sentThrough_cons_ok hpage]
      obtain ⟨request, response, txs, hnet, hlisted, hp⟩ := pageAt_ok hpage
      have hpage' : (∀ tx ∈ page, cursor < tx.lt) ∧ (page.map (·.lt)).Pairwise (· < ·) :=
        hp ▸ page_ascending cursor (honce net List.mem_cons_self request response txs hnet hlisted)
      obtain ⟨hpast, hsorted⟩ := hpage'
      obtain ⟨hnext, hlast⟩ := le_lastLt hpast hsorted
      obtain ⟨hlater, hlaterSorted⟩ := hrest ((page.getLast?.map (·.lt)).getD cursor)
      refine ⟨fun tx htx => ?_, ?_⟩
      · rcases List.mem_append.mp htx with h | h
        · exact hpast tx h
        · exact Nat.lt_of_le_of_lt hnext (hlater tx h)
      · rw [List.map_append, List.pairwise_append]
        refine ⟨hsorted, hlaterSorted, fun a ha b hb => ?_⟩
        obtain ⟨x, hx, rfl⟩ := List.mem_map.mp ha
        obtain ⟨y, hy, rfl⟩ := List.mem_map.mp hb
        exact Nat.lt_of_le_of_lt (hlast x hx) (hlater y hy)

/-- Whatever the indexer answers to each poll, so long as no answer lists a time twice: every
transaction the subscription sends is past the time it started from, the times sent strictly
increase, so that no time is sent twice, and what is sent does not depend on the log. A poll that
fails, is refused or gets an unreadable answer sends nothing, and the polls after it go on from
the same cursor. -/
theorem feed_sends_in_lt_order (s : FeedSettings) (account : String) (fromLt : Nat)
    (nets : List Network) (honce : ∀ net ∈ nets, net.ListsEachLtOnce) (logs : List LogEvent) :
    let sent := ((s.pollThrough account nets fromLt : Logged _).run logs).1
    sent = s.sentThrough account nets fromLt ∧ (∀ tx ∈ sent, fromLt < tx.lt) ∧
      (sent.map (·.lt)).Pairwise (· < ·) ∧
      ∀ net rest cursor e, s.pageAt account net cursor = .error e →
        s.sentThrough account (net :: rest) cursor = s.sentThrough account rest cursor := by
  intro sent
  have hsent : sent = s.sentThrough account nets fromLt := pollThrough_run nets fromLt logs
  obtain ⟨hpast, hsorted⟩ := sentThrough_ascending nets honce fromLt
  rw [hsent]
  exact ⟨rfl, hpast, hsorted, fun _ _ _ _ h => sentThrough_cons_error h⟩

end FeedSettings

/-- A page listing time 7 and then time 3. -/
def unsortedPage : String :=
  "\x7b\"transactions\":[\x7b\"hash\":\"b\",\"lt\":\"7\"\x7d,\x7b\"hash\":\"a\",\"lt\":3\x7d]\x7d"

/-- An indexer that answers every poll with the unsorted page. -/
def unsortedIndexer : Network := fun _ => .ok ⟨200, unsortedPage⟩

theorem unsortedIndexer_listsEachLtOnce : unsortedIndexer.ListsEachLtOnce := by
  intro request response txs hnet hlisted
  cases hnet
  have hlts : (listedTransactions unsortedPage).toOption.map (·.map (·.lt)) = some [7, 3] := by
    decide +kernel
  rw [show listedTransactions unsortedPage = .ok txs from hlisted] at hlts
  simp only [Except.toOption, Option.map_some, Option.some.injEq] at hlts
  rw [hlts]
  decide

theorem unreachable_listsEachLtOnce : Network.unreachable.ListsEachLtOnce := by
  intro request response txs hnet
  cases hnet

/-- Polls from time 2 that get the unsorted page, then no answer, then the same page again:
the page is sent sorted, once. -/
theorem unsortedIndexer_sends_in_order :
    (∀ net ∈ [unsortedIndexer, Network.unreachable, unsortedIndexer], net.ListsEachLtOnce) ∧
      let sent := (((({} : FeedSettings).pollThrough "0:treasury"
        [unsortedIndexer, Network.unreachable, unsortedIndexer] 2) : Logged _).run []).1
      sent = ({} : FeedSettings).sentThrough "0:treasury"
          [unsortedIndexer, Network.unreachable, unsortedIndexer] 2 ∧
        (∀ tx ∈ sent, 2 < tx.lt) ∧ (sent.map (·.lt)).Pairwise (· < ·) ∧
        ∀ net rest cursor e, ({} : FeedSettings).pageAt "0:treasury" net cursor = .error e →
          ({} : FeedSettings).sentThrough "0:treasury" (net :: rest) cursor =
            ({} : FeedSettings).sentThrough "0:treasury" rest cursor := by
  have honce : ∀ net ∈ [unsortedIndexer, Network.unreachable, unsortedIndexer],
      net.ListsEachLtOnce := by
    simp only [List.mem_cons, List.not_mem_nil, or_false, forall_eq_or_imp, forall_eq]
    exact ⟨unsortedIndexer_listsEachLtOnce, unreachable_listsEachLtOnce,
      unsortedIndexer_listsEachLtOnce⟩
  exact ⟨honce, FeedSettings.feed_sends_in_lt_order {} "0:treasury" 2 _ honce []⟩

end PoolTreasury
