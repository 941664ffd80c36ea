import Tradebook.Time.Calendar

/-!
# Instants

Seconds since 1970-01-01T00:00:00Z with nanoseconds. A leap second is not
counted: it is written as the second before it with a thousand million
nanoseconds more, so the nanoseconds of a second may reach two thousand million.
Leap seconds are put at the end of a minute, but an instant may have one behind
any second. The instants handled end with the years of `Date.firstYear` and
`Date.lastYear`.
-/

namespace Tradebook

/-- An instant within the years handled. -/
structure Timestamp where
  seconds : Int
  nanos : Nat
  first_le : -8334601228800 ≤ seconds
  le_last : seconds ≤ 8210266876799
  nanos_lt : nanos < 2000000000
  deriving DecidableEq, Repr

namespace Timestamp

/-- Nanoseconds of a second, and of one that a leap second follows. -/
def perSecond : Nat :=
  1000000000

/-- The instant of the given parts, if it is one that is handled. -/
def ofParts? (seconds : Int) (nanos : Nat) : Option Timestamp :=
  if h : (-8334601228800 ≤ seconds ∧ seconds ≤ 8210266876799) ∧ nanos < 2000000000 then
    some ⟨seconds, nanos, h.1.1, h.1.2, h.2⟩
  else none

/-- The beginning of the count. -/
def epoch : Timestamp :=
  ⟨0, 0, by decide, by decide, by decide⟩

instance : Inhabited Timestamp := ⟨epoch⟩

/-- The position on a line that has room for the leap seconds. -/
def rank (t : Timestamp) : Int :=
  t.seconds * 2000000000 + t.nanos

instance : LE Timestamp := ⟨fun a b => a.rank ≤ b.rank⟩

instance : LT Timestamp := ⟨fun a b => a.rank < b.rank⟩

instance (a b : Timestamp) : Decidable (a ≤ b) :=
  inferInstanceAs (Decidable (a.rank ≤ b.rank))

instance (a b : Timestamp) : Decidable (a < b) :=
  inferInstanceAs (Decidable (a.rank < b.rank))

/-- The later of two instants. -/
def later (a b : Timestamp) : Timestamp :=
  if a < b then b else a

/-- The earlier of two instants. -/
def earlier (a b : Timestamp) : Timestamp :=
  if b < a then b else a

/-- So many seconds later, unless that leaves the range. A leap second is left behind. -/
def addSeconds? (t : Timestamp) (seconds : Nat) : Option Timestamp :=
  if seconds = 0 then some t
  else ofParts? (t.seconds + seconds) (if t.nanos < perSecond then t.nanos else t.nanos - perSecond)

/-- Whole milliseconds since the beginning of the count, rounded down. -/
def milliseconds (t : Timestamp) : Int :=
  t.seconds * 1000 + t.nanos / 1000000

end Timestamp

/-- What a clock on the wall shows: a day and the time since midnight. -/
structure WallClock where
  date : Date
  second : Nat
  nanos : Nat
  deriving DecidableEq, Repr

namespace WallClock

/-- The seconds since the clock showed the beginning of 1970. -/
def seconds (w : WallClock) : Int :=
  86400 * w.date.dayNumber + w.second

/-- The reading that lies so many seconds after the beginning of 1970. -/
def ofSeconds (seconds : Int) (nanos : Nat) : WallClock :=
  ⟨.ofDayNumber (seconds / 86400), (seconds % 86400).toNat, nanos⟩

/-- The reading of a clock that is `offset` seconds ahead, if it is handled. -/
def ofTimestamp? (t : Timestamp) (offset : Int) : Option WallClock :=
  let seconds := t.seconds + offset
  if -8334601228800 ≤ seconds ∧ seconds ≤ 8210266876799 then some (ofSeconds seconds t.nanos)
  else none

/-- The instant at which a clock that is `offset` seconds ahead shows this. -/
def toTimestamp? (w : WallClock) (offset : Int) : Option Timestamp :=
  Timestamp.ofParts? (w.seconds - offset) w.nanos

end WallClock

end Tradebook
