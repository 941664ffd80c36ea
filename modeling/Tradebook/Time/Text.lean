import Tradebook.Time.Timestamp

/-!
# Instants as text

Date and time of day at the meridian of Greenwich. The fraction of a second has
no digits, three, six or nine, whichever are the fewest that leave nothing out.
A leap second is counted as the second behind its own, so at the end of a minute it
is the sixtieth.
-/

namespace Tradebook

open Tradebook.Text

namespace WallClock

/-- The nanoseconds behind a point, in as few groups of three digits as suffice. -/
def fractionText (nanos : Nat) : String :=
  if nanos = 0 then ""
  else if nanos % 1000000 = 0 then .ofList ('.' :: padZeros 3 (decimalDigits (nanos / 1000000)))
  else if nanos % 1000 = 0 then .ofList ('.' :: padZeros 6 (decimalDigits (nanos / 1000)))
  else .ofList ('.' :: padZeros 9 (decimalDigits nanos))

/-- Hours, minutes and seconds between colons, and the fraction. -/
def timeText (w : WallClock) : String :=
  let leap := w.nanos / Timestamp.perSecond
  Date.twoDigits (w.second / 3600) ++ ":" ++ Date.twoDigits (w.second / 60 % 60) ++ ":" ++
    Date.twoDigits (w.second % 60 + leap) ++ fractionText (w.nanos % Timestamp.perSecond)

end WallClock

namespace Timestamp

/-- What a clock at Greenwich shows. -/
def wallClock (t : Timestamp) : WallClock :=
  .ofSeconds t.seconds t.nanos

/-- Date and time with a `T` between them and the given zone behind. -/
def textWith (t : Timestamp) (zone : String) : String :=
  t.wallClock.date.text ++ "T" ++ t.wallClock.timeText ++ zone

/-- The form used in records. -/
def text (t : Timestamp) : String :=
  t.textWith "Z"

/-- The form used in messages, with the zone as a distance. -/
def offsetText (t : Timestamp) : String :=
  t.textWith "+00:00"

/-- The form for a reader, with a blank between date and time. -/
def plainText (t : Timestamp) : String :=
  t.wallClock.date.text ++ " " ++ t.wallClock.timeText ++ " UTC"

end Timestamp

end Tradebook
