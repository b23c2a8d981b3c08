import PoolTreasury.Wire.Decode
import PoolTreasury.Feed.Indexer

/-! # Computations that only log

The decoder, the page parser and the feed's polls are written once for any monad with a log.
Run in a state monad whose log is a part of the state, they change that part only, and what
they give does not depend on it: it is what they give when the log drops every event
(`quietLog`). This is stated as `LogsOnly add x y`: the run `x`, whose log writes each event by
`add`, gives the quiet run `y` and changes the state by writing some events.

The relation composes along `>>=` and holds of `pure` and of each log event, so each function
is walked once, by its own text. Every state monad with a log is an instance: the bare log
`Logged`, and the ingestion session.
-/

namespace PoolTreasury

/-- A log that drops every event: run in it, a computation that only logs gives its value. -/
@[reducible] def quietLog : MonadLog Id := ⟨fun _ => pure ()⟩

section Rules

variable {σ α β : Type} (add : LogEvent → σ → σ)

/-- A state monad whose log writes each event by `add`. -/
@[reducible] def logInto : MonadLog (StateM σ) := ⟨fun e => modify (add e)⟩

/-- The state after writing `events`, the first first. -/
def writeAll (events : List LogEvent) (s : σ) : σ := events.foldl (fun s e => add e s) s

/-- `x` gives what the quiet run `y` gives, and changes the state only by writing events. -/
def LogsOnly (x : StateM σ α) (y : Id α) : Prop :=
  ∀ s, ∃ events : List LogEvent, x.run s = (y.run, writeAll add events s)

variable {add}

theorem writeAll_append (es es' : List LogEvent) (s : σ) :
    writeAll add (es ++ es') s = writeAll add es' (writeAll add es s) := by
  simp [writeAll, List.foldl_append]

theorem LogsOnly.pure (a : α) : LogsOnly add (Pure.pure a) (Pure.pure a) :=
  fun _ => ⟨[], rfl⟩

theorem LogsOnly.bind {x : StateM σ α} {y : Id α} {f : α → StateM σ β} {g : α → Id β}
    (hx : LogsOnly add x y) (hf : ∀ a, LogsOnly add (f a) (g a)) :
    LogsOnly add (x >>= f) (y >>= g) := by
  intro s
  obtain ⟨es, hes⟩ := hx s
  obtain ⟨es', hes'⟩ := hf y.run (writeAll add es s)
  refine ⟨es ++ es', ?_⟩
  rw [StateT.run_bind, hes, writeAll_append]
  exact hes'

theorem LogsOnly.logAt (level : LogLevel) (message : String) (fields : List (String × String)) :
    LogsOnly add (@PoolTreasury.logAt _ (logInto add) level message fields)
      (@PoolTreasury.logAt _ quietLog level message fields) :=
  fun _ => ⟨[{ level, message, fields }], rfl⟩

/-- A log event before the rest of a run. -/
theorem LogsOnly.logAt_bind {level : LogLevel} {message : String} {fields : List (String × String)}
    {x : StateM σ α} {y : Id α} (h : LogsOnly add x y) :
    LogsOnly add (@PoolTreasury.logAt _ (logInto add) level message fields >>= fun _ => x)
      (@PoolTreasury.logAt _ quietLog level message fields >>= fun _ => y) :=
  (LogsOnly.logAt level message fields).bind fun _ => h

theorem LogsOnly.ite {c : Prop} [Decidable c] {x x' : StateM σ α} {y y' : Id α}
    (h : LogsOnly add x y) (h' : LogsOnly add x' y') :
    LogsOnly add (if c then x else x') (if c then y else y') := by
  split
  · exact h
  · exact h'

/-- A note logged or not, before the same rest of the run: the join point of a `do` block. -/
theorem LogsOnly.join {c : Prop} [Decidable c] {x : StateM σ Unit} {y : Id Unit}
    {k : Unit → StateM σ α} {k' : Unit → Id α} (hx : LogsOnly add x y)
    (hk : LogsOnly add (k ()) (k' ())) :
    LogsOnly add (if c then x >>= k else k ()) (if c then y >>= k' else k' ()) :=
  LogsOnly.ite (hx.bind fun _ => hk) hk

/-- In the bare log, a computation that only logs gives its quiet value from any log. -/
theorem LogsOnly.run_logged {x : Logged α} {y : Id α} (h : LogsOnly (fun e l => l ++ [e]) x y)
    (logs : List LogEvent) : (x.run logs).1 = y.run := by
  obtain ⟨es, hes⟩ := h logs
  rw [hes]

end Rules

/-! ## Decoding a transaction -/

section Decode

variable {σ : Type} {add : LogEvent → σ → σ}

theorem logNative_logsOnly (tx : LedgerTransaction) (value : Nat) :
    LogsOnly add (@logNative _ (logInto add) tx value) (@logNative _ quietLog tx value) := by
  unfold logNative
  exact LogsOnly.ite (LogsOnly.logAt _ _ _) (LogsOnly.logAt _ _ _)

theorem decodeNotification_logsOnly (tx : LedgerTransaction) (slice : Slice) :
    LogsOnly add (@decodeNotification _ _ (logInto add) tx slice)
      (@decodeNotification _ _ quietLog tx slice) := by
  unfold decodeNotification
  split
  · exact LogsOnly.pure _
  · exact LogsOnly.pure _
  · dsimp only
    -- no payload header, a comment, a short text, bad base64, or the request
    refine LogsOnly.ite (LogsOnly.logAt_bind (LogsOnly.pure _)) ?_
    split
    · exact LogsOnly.pure _
    · refine LogsOnly.ite (LogsOnly.logAt_bind (LogsOnly.pure _)) (LogsOnly.ite (LogsOnly.pure _) ?_)
      split
      · exact LogsOnly.pure _
      · exact LogsOnly.logAt_bind (LogsOnly.pure _)

theorem decodeTransaction_logsOnly (tx : LedgerTransaction) :
    LogsOnly add (@decodeTransaction _ _ (logInto add) tx) (@decodeTransaction _ _ quietLog tx) := by
  unfold decodeTransaction
  split
  · exact LogsOnly.logAt_bind (LogsOnly.pure _)
  · refine LogsOnly.ite (LogsOnly.logAt_bind (LogsOnly.pure _)) ?_
    -- a note on extra currencies, then the body
    refine LogsOnly.join (LogsOnly.logAt _ _ _) ?_
    dsimp only
    refine LogsOnly.ite ((logNative_logsOnly _ _).bind fun _ => LogsOnly.pure _) ?_
    split
    · exact LogsOnly.pure _
    · refine LogsOnly.ite ((logNative_logsOnly _ _).bind fun _ => LogsOnly.pure _) ?_
      split
      · exact LogsOnly.pure _
      · refine LogsOnly.ite (LogsOnly.logAt_bind (LogsOnly.pure _)) ?_
        refine LogsOnly.ite (decodeNotification_logsOnly _ _) ?_
        exact LogsOnly.ite ((logNative_logsOnly _ _).bind fun _ => LogsOnly.pure _)
          ((LogsOnly.logAt _ _ _).bind fun _ => LogsOnly.pure _)

end Decode

/-- The request a transaction carries, or why it carries none, its log aside. -/
def decodedRequest (tx : LedgerTransaction) : Except DecodeError (Option InboundRequest) :=
  @decodeTransaction Id _ quietLog tx

/-! ## Reading a page of transactions -/

section Parse

variable {σ : Type} {add : LogEvent → σ → σ}

theorem messageOfJson_logsOnly (hash : String) (j : Json) :
    LogsOnly add (@messageOfJson _ _ (logInto add) hash j) (@messageOfJson _ _ quietLog hash j) := by
  unfold messageOfJson
  simp only [pure_bind]
  -- the value read or refused, then the body decoded or dropped with a warning
  repeat' split
  all_goals first
    | exact LogsOnly.pure _
    | exact LogsOnly.logAt_bind (LogsOnly.pure _)

theorem transactionOfJson_logsOnly (j : Json) :
    LogsOnly add (@transactionOfJson _ _ (logInto add) j) (@transactionOfJson _ _ quietLog j) := by
  unfold transactionOfJson
  dsimp only
  split
  · exact LogsOnly.pure _
  · split
    · exact LogsOnly.pure _
    · refine (messageOfJson_logsOnly _ _).bind fun r => ?_
      cases r <;> exact LogsOnly.pure _

theorem transactionsOfJson_logsOnly (js : List Json) :
    LogsOnly add (@transactionsOfJson _ _ (logInto add) js) (@transactionsOfJson _ _ quietLog js) := by
  induction js with
  | nil => exact LogsOnly.pure _
  | cons j rest ih =>
    refine (transactionOfJson_logsOnly j).bind fun r => ?_
    cases r with
    | error e => exact LogsOnly.pure _
    | ok tx =>
      refine ih.bind fun r' => ?_
      cases r' <;> exact LogsOnly.pure _

theorem parseTransactions_logsOnly (body : String) :
    LogsOnly add (@parseTransactions _ _ (logInto add) body) (@parseTransactions _ _ quietLog body) := by
  unfold parseTransactions
  split
  · exact LogsOnly.pure _
  · exact transactionsOfJson_logsOnly _

end Parse

/-- The transactions an indexer response lists, in the order given, its log aside. -/
def listedTransactions (body : String) : Except FeedError (List LedgerTransaction) :=
  @parseTransactions Id _ quietLog body

end PoolTreasury
