import CaseAccess.Calendar.Date

/-!
# Instants

A moment in UTC: a date, the second of that day, and the nanoseconds since that
second began. A leap second has no number of its own; it is the second before it,
with a thousand million nanoseconds or more.

Instants are ordered by date, second and nanoseconds. `truncated` drops what is
finer than a microsecond, which is how an instant is kept. A leap second within a
minute is kept as the second after it, which is how it is written.
-/

namespace CaseAccess

structure Instant where
  date : Date
  second : Nat
  nanos : Nat
  second_lt : second < 86400
  nanos_lt : nanos < 2000000000
  deriving DecidableEq

namespace Instant

instance : Repr Instant := ⟨fun t n => reprPrec (t.date, t.second, t.nanos) n⟩

/-- The day number of 1 January 1970. -/
def epochDay : Int := 719163

/-- Seconds since 1 January 1970. -/
def epochSeconds (t : Instant) : Int :=
  (t.date.dayNumber - epochDay) * 86400 + t.second

/-- The instant on that day, at that second, with that many nanoseconds. -/
def of? (date : Date) (second nanos : Nat) : Option Instant :=
  if h : second < 86400 ∧ nanos < 2000000000 then some ⟨date, second, nanos, h.1, h.2⟩ else none

/-- The instant that many seconds and nanoseconds after 1 January 1970, if the
calendar has its date. -/
def ofEpoch? (seconds : Int) (nanos : Nat) : Option Instant := do
  let date ← Date.ofDayNumber? (seconds / 86400 + epochDay)
  of? date (seconds % 86400).toNat nanos

/-- `a` is not after `b`. -/
def le (a b : Instant) : Bool :=
  a.epochSeconds < b.epochSeconds || (a.epochSeconds = b.epochSeconds && a.nanos ≤ b.nanos)

instance : LE Instant := ⟨fun a b => a.le b = true⟩
instance (a b : Instant) : Decidable (a ≤ b) := inferInstanceAs (Decidable (a.le b = true))

/-- The instant to the microsecond, without what is finer. -/
def truncated (t : Instant) : Instant :=
  if h : t.second % 60 ≠ 59 ∧ 1000000000 ≤ t.nanos then
    ⟨t.date, t.second + 1, (t.nanos - 1000000000) / 1000 * 1000,
      by have := t.second_lt; omega, by have := t.nanos_lt; omega⟩
  else ⟨t.date, t.second, t.nanos / 1000 * 1000, t.second_lt, by have := t.nanos_lt; omega⟩

theorem truncated_date (t : Instant) : t.truncated.date = t.date := by
  rw [truncated]
  split
  · rfl
  · rfl

/-- Midnight at the start of 1 January 1970. -/
def epoch : Instant :=
  ⟨⟨1970, 1, 1, by decide⟩, 0, 0, by decide, by decide⟩

instance : Inhabited Instant := ⟨epoch⟩

end Instant

end CaseAccess
