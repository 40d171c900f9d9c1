import Cohort.Calendar.Timestamp
import Cohort.Json.Shape

/-!
Dates and timestamps as JSON: a year and a day of the year, for a timestamp followed by the time
of day and the hours, minutes and seconds of the offset.
-/

namespace Cohort

def Json.wholes? (value : Json) : Option (List Int) :=
  value.itemsWith? fun
    | .number (.whole item) => some item
    | _ => none

def Json.asNatural? (value : Int) : Option Nat :=
  if 0 ≤ value then some value.toNat else none

namespace Date

def toJson (date : Date) : Json :=
  .array [.ofInt date.year, .ofNat date.dayOfYear]

def ofJson? (value : Json) : Option Date := do
  match ← value.wholes? with
  | [year, day] => ofYearDay? year (← Json.asNatural? day)
  | _ => none

end Date

namespace Timestamp

/-- A timestamp as an array of nine numbers: the date, the time of day and the offset. -/
def toJson (timestamp : Timestamp) : Json :=
  let ⟨date, time, offset⟩ := timestamp
  let (hours, minutes, seconds) := offset.parts
  .array ([date.year, date.dayOfYear, time.hour.val, time.minute.val, time.second.val,
    time.nanosecond.val, hours, minutes, seconds].map Json.ofInt)

def ofJson? (value : Json) : Option Timestamp := do
  match ← value.wholes? with
  | [year, day, hour, minute, second, nanosecond, hours, minutes, seconds] =>
      let date ← Date.ofYearDay? year (← Json.asNatural? day)
      let time ← TimeOfDay.ofParts? (← Json.asNatural? hour) (← Json.asNatural? minute)
        (← Json.asNatural? second) (← Json.asNatural? nanosecond)
      let offset ← UtcOffset.ofParts? hours minutes seconds
      return ⟨date, time, offset⟩
  | _ => none

end Timestamp

end Cohort
