/-! # Log events

An event has a level, a message and named fields, and is written as one line:
`LEVEL message name=value …`, the fields in the order they are given.
-/

namespace PoolTreasury

inductive LogLevel where
  | trace
  | debug
  | info
  | warn
  | error
deriving DecidableEq, Repr

def LogLevel.label : LogLevel → String
  | .trace => "TRACE"
  | .debug => "DEBUG"
  | .info => "INFO"
  | .warn => "WARN"
  | .error => "ERROR"

structure LogEvent where
  level : LogLevel
  message : String
  fields : List (String × String) := []
deriving DecidableEq, Repr

def LogEvent.render (e : LogEvent) : String :=
  e.level.label ++ " " ++ e.message ++ String.join (e.fields.map fun (k, v) => " " ++ k ++ "=" ++ v)

/-- Effects that can write log events. -/
class MonadLog (m : Type → Type) where
  emit : LogEvent → m Unit

def logAt {m : Type → Type} [MonadLog m] (level : LogLevel) (message : String)
    (fields : List (String × String) := []) : m Unit :=
  MonadLog.emit { level, message, fields }

instance {m : Type → Type} {ε : Type} [Monad m] [MonadLog m] : MonadLog (ExceptT ε m) where
  emit e := ExceptT.lift (MonadLog.emit e)

instance {m : Type → Type} {σ : Type} [Monad m] [MonadLog m] : MonadLog (StateT σ m) where
  emit e := StateT.lift (MonadLog.emit e)

/-- A computation that only writes log events. -/
abbrev Logged := StateM (List LogEvent)

instance : MonadLog Logged where
  emit e := modify (· ++ [e])

end PoolTreasury
