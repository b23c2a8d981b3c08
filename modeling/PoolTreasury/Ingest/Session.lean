import PoolTreasury.Ingest.Pipeline

/-! # A self-contained ingestion session

The pipeline with a cursor that saves into a store of its own, a request queue that
keeps what was sent until it is drained, and a log. Saving the cursor always succeeds.
-/

namespace PoolTreasury

structure IngestSession where
  cursor : CursorState := {}
  /-- The cursor as last saved in the store. -/
  stored : Option Nat := none
  queue : List SubmitTransaction := []
  /-- Whether the application still reads the queue. -/
  reading : Bool := true
  logs : List LogEvent := []

abbrev Ingesting := StateM IngestSession

instance : MonadLog Ingesting where
  emit e := modify fun s => { s with logs := s.logs ++ [e] }

instance : MonadCursor Ingesting where
  cursorState := do pure (← get).cursor
  setCursorState c := modify fun s => { s with cursor := c }
  persistCursor lt := do
    modify fun s => { s with stored := some lt }
    pure (.ok ())

instance : MonadRequestQueue Ingesting where
  send r := do
    let s ← get
    if s.reading then
      set { s with queue := s.queue ++ [r] }
      pure true
    else pure false

namespace IngestSession

/-- Stops reading the queue; what was queued is lost. -/
def dropConsumer : Ingesting Unit :=
  modify fun s => { s with reading := false, queue := [] }

/-- Everything queued so far, taken off the queue. -/
def drain : Ingesting (List SubmitTransaction) := do
  let s ← get
  set { s with queue := [] }
  pure s.queue

/-- The log events written since the last call. -/
def takeLogs : Ingesting (List LogEvent) := do
  let s ← get
  set { s with logs := [] }
  pure s.logs

end IngestSession

end PoolTreasury
