/-! # Instants in UTC

An instant is a whole second since 1970-01-01T00:00:00Z, counted without leap seconds, and
the nanoseconds into it. A leap second, written as second 60 of a minute, is kept as a
second run of that minute's second 59: its nanoseconds go from one to two billion. Instants
are ordered by second, then by nanoseconds, so a leap second falls between second 59 and
the next minute.

Arithmetic follows the same picture. Adding whole seconds to an instant in a leap second
leaves the leap second: the nanoseconds lose their extra billion. A difference counts the
leap second of the earlier instant when the later one is later in its day, and not when it
is earlier in its day; in that sense leap seconds live in the time of day.
-/

namespace PoolTreasury

/-- Seconds in a day. -/
def secondsPerDay : Int := 86400

def nanosPerSecond : Int := 1000000000

/-- A point in time: whole seconds since the epoch and nanoseconds into that second, a
billion or more only in a leap second. -/
structure Instant where
  second : Int
  nanos : Nat
deriving DecidableEq, Repr

namespace Instant

def ofSeconds (s : Int) : Instant := ⟨s, 0⟩

/-- The instant `n` nanoseconds after the epoch, outside any leap second. -/
def ofNanos (n : Int) : Instant := ⟨n / nanosPerSecond, (n % nanosPerSecond).toNat⟩

/-- Whole seconds since the epoch; a leap second counts as the second before it. -/
def seconds (t : Instant) : Int := t.second

/-- Whether the instant lies in a leap second. -/
def isLeap (t : Instant) : Bool := t.nanos ≥ 1000000000

instance : LT Instant := ⟨fun a b => a.second < b.second ∨ (a.second = b.second ∧ a.nanos < b.nanos)⟩
instance : LE Instant := ⟨fun a b => a.second < b.second ∨ (a.second = b.second ∧ a.nanos ≤ b.nanos)⟩

theorem lt_def {a b : Instant} : a < b ↔ a.second < b.second ∨ (a.second = b.second ∧ a.nanos < b.nanos) :=
  Iff.rfl

theorem le_def {a b : Instant} : a ≤ b ↔ a.second < b.second ∨ (a.second = b.second ∧ a.nanos ≤ b.nanos) :=
  Iff.rfl

instance (a b : Instant) : Decidable (a < b) := decidable_of_iff _ lt_def.symm
instance (a b : Instant) : Decidable (a ≤ b) := decidable_of_iff _ le_def.symm

/-- The instant `k` whole seconds later (earlier for negative `k`). From a leap second, any
step leaves it: forward from second 59, backward from the second after it. -/
def addSeconds (t : Instant) (k : Int) : Instant :=
  if t.isLeap && k > 0 then ⟨t.second + k, t.nanos - 1000000000⟩
  else if t.isLeap && k < 0 then ⟨t.second + 1 + k, t.nanos - 1000000000⟩
  else ⟨t.second + k, t.nanos⟩

/-- The first second a clock reading holds: January 1 of year -262143. -/
def firstSecond : Int := -8334601228800

/-- The first second past the last date a clock reading holds, December 31 of year 262142. -/
def secondsLimit : Int := 8210266876800

/-- Whether the instant lies within the dates a clock reading holds. -/
def inRange (t : Instant) : Bool := firstSecond ≤ t.second && t.second < secondsLimit

/-- The second of the day an instant falls in. -/
def secondOfDay (t : Instant) : Int := t.second % secondsPerDay

/-- Nanoseconds from `earlier` to `t`. The leap second `earlier` lies in counts once more
when `t` is later in its day, and the one `t` lies in counts once less when `t` is earlier
in its day. -/
def since (t earlier : Instant) : Int :=
  let correction : Int :=
    if t.secondOfDay > earlier.secondOfDay && earlier.isLeap then 1
    else if t.secondOfDay < earlier.secondOfDay && t.isLeap then -1
    else 0
  (t.second - earlier.second + correction) * nanosPerSecond + ((t.nanos : Int) - earlier.nanos)

@[simp] theorem addSeconds_zero (t : Instant) : t.addSeconds 0 = t := by
  simp [addSeconds]

theorem ofSeconds_addSeconds (s k : Int) : (ofSeconds s).addSeconds k = ofSeconds (s + k) := by
  simp [ofSeconds, addSeconds, isLeap]

end Instant

end PoolTreasury
