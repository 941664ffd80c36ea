import Tradebook.Time.Timestamp

/-!
# Time zones

A zone is the history of how far its clocks were ahead of Greenwich. Where the
clocks went forward some readings never showed, and where they went back some
showed twice; so a reading has no instant, one, or two.
-/

namespace Tradebook

/-- The distance in seconds that holds at first, and the moments it changed, in order. -/
structure Zone where
  initial : Int
  changes : List (Int × Int)
  deriving DecidableEq, Repr

namespace Zone

/-- A zone whose clocks were never changed. -/
def fixed (offset : Int) : Zone :=
  ⟨offset, []⟩

/-- Greenwich. -/
def utc : Zone :=
  fixed 0

/-- The distance at a moment. -/
def offsetAt (z : Zone) (seconds : Int) : Int :=
  (z.changes.filter (·.1 ≤ seconds)).foldl (fun _ change => change.2) z.initial

/-- The distances under which a reading showed while they held: `start` is the moment from which
`offset` holds, none for all time before. -/
def offsetsFor (reading : Int) (start : Option Int) (offset : Int) : List (Int × Int) → List Int
  | [] => if start.all (· ≤ reading - offset) then [offset] else []
  | (change, next) :: changes =>
    let later := offsetsFor reading (some change) next changes
    if start.all (· ≤ reading - offset) && reading - offset < change then offset :: later
    else later

/-- What clocks in the zone show at an instant, if that is handled. -/
def wallClock? (z : Zone) (t : Timestamp) : Option WallClock :=
  WallClock.ofTimestamp? t (z.offsetAt t.seconds)

/-- The instants at which clocks in the zone show a reading, the first one first; none of two
where one of them is out of range. -/
def instants (z : Zone) (w : WallClock) : List Timestamp :=
  let found := (offsetsFor w.seconds none z.initial z.changes).map w.toTimestamp?
  if found.all Option.isSome then found.filterMap id else []

/-- The only instant of a reading. -/
def single? (z : Zone) (w : WallClock) : Option Timestamp :=
  match z.instants w with
  | [t] => some t
  | _ => none

/-- The first instant of a reading. -/
def earliest? (z : Zone) (w : WallClock) : Option Timestamp :=
  (z.instants w).head?

end Zone

end Tradebook
