import Tradebook.Text.Quoted
import Tradebook.Time.Reader
import Tradebook.Time.Text
import Tradebook.Time.Zone.Taipei
import Tradebook.Outcome

/-!
# Where a synchronisation starts

A date that the user gives means midnight of that day in Taipei. Without one the
run starts three calendar months before now, at the same time of day on the same
day of the month; days that the earlier month does not have are counted into the
month after it.
-/

namespace Tradebook

open Tradebook.Text

/-- Why a start could not be found. -/
inductive StartTimeError where
  /-- The text is no date. -/
  | invalidDate (input : String)
  /-- The clocks in Taipei never showed midnight of that day, or showed it twice. -/
  | noMidnight (date : Date)
  /-- The earlier reading of the clock does not exist or is not handled. -/
  | outOfRange (start : Timestamp) (months : Nat)
  deriving DecidableEq, Repr

/-- The wording of the error. -/
def StartTimeError.message : StartTimeError → String
  | invalidDate input => "invalid date " ++ quoted input ++ ", expected YYYY-MM-DD"
  | noMidnight date => date.text ++ " has no unambiguous midnight in Asia/Taipei"
  | outOfRange start months =>
    "cannot go back " ++ natText months ++ " months from " ++ start.offsetText

namespace StartTime

/-- How far back a run reaches when no date is given. -/
def lookbackMonths : Nat :=
  3

/-- The same day of the month so many months earlier, counted on from the first of that month. -/
def dayMonthsBefore? (date : Date) (months : Nat) : Option Date :=
  let index := date.monthIndex - months
  match Date.ofParts? (index / 12) ((index % 12).toNat + 1) 1 with
  | some first => some (.ofDayNumber (first.dayNumber + (date.day - 1 : Nat)))
  | none => none

/-- The clock an hour later. -/
def hourLater (w : WallClock) : WallClock :=
  .ofSeconds (w.seconds + 3600) (w.nanos % Timestamp.perSecond)

/-- The same reading of the clock so many months earlier; where the clock skipped it, the reading
an hour later. -/
def monthsBefore? (zone : Zone) (clock : WallClock) (months : Nat) : Option Timestamp :=
  match dayMonthsBefore? clock.date months with
  | none => none
  | some date =>
    let earlier : WallClock := ⟨date, clock.second, clock.nanos⟩
    (zone.earliest? earlier).or (zone.earliest? (hourLater earlier))

/-- The start that a date stands for. -/
def ofDate (input : String) : Except StartTimeError Timestamp :=
  match Date.ofText? input with
  | none => .error (.invalidDate input)
  | some date =>
    match Zone.taipei.single? ⟨date, 0, 0⟩ with
    | none => .error (.noMidnight date)
    | some t => .ok t

/-- The start of a run at `now` with clocks in `zone`. A blank date is no date. -/
def resolve (since : Option String) (now : Timestamp) (zone : Zone) :
    Outcome StartTimeError Timestamp :=
  match (since.map trim).filter (· ≠ "") with
  | some date => .ofExcept (ofDate date)
  | none =>
    match zone.wallClock? now with
    | none => .overflow
    | some clock =>
      .ofOption (.outOfRange now lookbackMonths) (monthsBefore? zone clock lookbackMonths)

end StartTime

end Tradebook
