import Cohort.Calendar.Date

/-!
Moments in time, as they are written down.

A `Timestamp` keeps the local date and time of day and the distance of the local clock from UTC.
What it means is its `instant`: timestamps are compared by instant, so the same moment may be
written with several offsets.
-/

namespace Cohort

/-- A time of day; there is no room for a leap second. -/
structure TimeOfDay where
  hour : Fin 24
  minute : Fin 60
  second : Fin 60
  nanosecond : Fin 1000000000
deriving DecidableEq

namespace TimeOfDay

def midnight : TimeOfDay :=
  ⟨0, 0, 0, 0⟩

def lastMoment : TimeOfDay :=
  ⟨23, 59, 59, 999999999⟩

def ofParts? (hour minute second nanosecond : Nat) : Option TimeOfDay :=
  if ranges : hour < 24 ∧ minute < 60 ∧ second < 60 ∧ nanosecond < 1000000000 then
    some ⟨⟨hour, ranges.1⟩, ⟨minute, ranges.2.1⟩, ⟨second, ranges.2.2.1⟩,
      ⟨nanosecond, ranges.2.2.2⟩⟩
  else
    none

def seconds (time : TimeOfDay) : Nat :=
  time.hour * 3600 + time.minute * 60 + time.second

def nanoseconds (time : TimeOfDay) : Nat :=
  time.seconds * 1000000000 + time.nanosecond

theorem nanoseconds_lt (time : TimeOfDay) : time.nanoseconds < 86400000000000 := by
  have := time.hour.isLt
  have := time.minute.isLt
  have := time.second.isLt
  have := time.nanosecond.isLt
  unfold nanoseconds seconds
  omega

/-- The time of day at a given number of nanoseconds after midnight; whole days are dropped. -/
def ofNanoseconds (count : Nat) : TimeOfDay where
  hour := Fin.ofNat 24 (count / 3600000000000)
  minute := Fin.ofNat 60 (count / 60000000000)
  second := Fin.ofNat 60 (count / 1000000000)
  nanosecond := Fin.ofNat 1000000000 count

@[simp]
theorem ofNanoseconds_nanoseconds (time : TimeOfDay) : ofNanoseconds time.nanoseconds = time := by
  rcases time with ⟨⟨hour, hourSmall⟩, ⟨minute, minuteSmall⟩, ⟨second, secondSmall⟩,
    ⟨nanosecond, nanosecondSmall⟩⟩
  simp only [ofNanoseconds, nanoseconds, seconds, Fin.ofNat, TimeOfDay.mk.injEq, Fin.mk.injEq]
  omega

theorem nanoseconds_ofNanoseconds {count : Nat} (small : count < 86400000000000) :
    (ofNanoseconds count).nanoseconds = count := by
  simp only [ofNanoseconds, nanoseconds, seconds, Fin.ofNat]
  omega

end TimeOfDay

/-- How far a local clock is ahead of UTC, in seconds; at most 25:59:59 either way. -/
structure UtcOffset where
  seconds : Int
  inRange : seconds.natAbs ≤ 93599 := by decide
deriving DecidableEq

namespace UtcOffset

def utc : UtcOffset where
  seconds := 0

def isBehind (offset : UtcOffset) : Bool :=
  offset.seconds < 0

def signed (offset : UtcOffset) (size : Nat) : Int :=
  if offset.isBehind then -size else size

/-- The hours, minutes and seconds of an offset; all three carry its sign. -/
def parts (offset : UtcOffset) : Int × Int × Int :=
  let size := offset.seconds.natAbs
  (offset.signed (size / 3600), offset.signed (size / 60 % 60), offset.signed (size % 60))

/-- The offset with the given hours, minutes and seconds, if each is in range.  The first part
that is not zero gives the sign of the whole. -/
def ofParts? (hours minutes seconds : Int) : Option UtcOffset :=
  let leading := if hours ≠ 0 then hours else if minutes ≠ 0 then minutes else seconds
  let size := hours.natAbs * 3600 + minutes.natAbs * 60 + seconds.natAbs
  if ranges : hours.natAbs ≤ 25 ∧ minutes.natAbs ≤ 59 ∧ seconds.natAbs ≤ 59 then
    if leading < 0 then some ⟨-size, by omega⟩ else some ⟨size, by omega⟩
  else
    none

theorem ofParts?_parts (offset : UtcOffset) :
    ofParts? offset.parts.1 offset.parts.2.1 offset.parts.2.2 = some offset := by
  rcases offset with ⟨seconds, inRange⟩
  by_cases behind : seconds < 0
  · simp only [ofParts?, parts, signed, isBehind, behind, decide_true, if_true]
    rw [dif_pos (by omega), if_pos (by omega)]
    congr 2
    omega
  · simp only [ofParts?, parts, signed, isBehind, behind, decide_false, Bool.false_eq_true,
      if_false]
    rw [dif_pos (by omega), if_neg (by omega)]
    congr 2
    omega

end UtcOffset

/-- A local date and time of day together with the offset of the local clock. -/
structure Timestamp where
  date : Date
  time : TimeOfDay
  offset : UtcOffset
deriving DecidableEq

namespace Timestamp

/-- The moment meant, in nanoseconds from midnight UTC on 1 January of year 1. -/
def instant (timestamp : Timestamp) : Int :=
  timestamp.date.dayNumber * 86400000000000 + timestamp.time.nanoseconds
    - timestamp.offset.seconds * 1000000000

def nanosecondsPerDay : Int :=
  86400000000000

def utcDate? (timestamp : Timestamp) : Option Date :=
  Date.ofDayNumber? (timestamp.instant / nanosecondsPerDay)

def utcTime (timestamp : Timestamp) : TimeOfDay :=
  .ofNanoseconds (timestamp.instant % nanosecondsPerDay).toNat

/-- Whether a leap second could follow the moment meant: it is the last nanosecond of a month
in UTC. -/
def precedesLeapSecond (timestamp : Timestamp) : Bool :=
  timestamp.utcTime = .lastMoment && timestamp.utcDate?.any Date.endsMonth

end Timestamp

def Date.midnight (date : Date) : Timestamp :=
  ⟨date, .midnight, .utc⟩

@[simp]
theorem Date.midnight_date (date : Date) : date.midnight.date = date :=
  rfl

@[simp]
theorem Date.instant_midnight (date : Date) :
    date.midnight.instant = date.dayNumber * 86400000000000 := by
  simp [Date.midnight, Timestamp.instant, TimeOfDay.midnight, TimeOfDay.nanoseconds,
    TimeOfDay.seconds, UtcOffset.utc]

namespace Timestamp

/-- The local date, if the timestamp means the start of that date in UTC. -/
def midnightDate? (timestamp : Timestamp) : Option Date :=
  if timestamp.instant = timestamp.date.midnight.instant then some timestamp.date else none

@[simp]
theorem midnightDate?_midnight (date : Date) : date.midnight.midnightDate? = some date := by
  simp [midnightDate?]

def nanosecondsPerTick : Int :=
  100

/-- The whole ticks from the start of year 1 to a timestamp, which must not precede it. -/
def ticks? (timestamp : Timestamp) : Option Nat :=
  let ticks := timestamp.instant / nanosecondsPerTick
  if 0 ≤ ticks then some ticks.toNat else none

def ticksPerDay : Nat :=
  864000000000

/-- The timestamp in UTC a number of ticks after the start of year 1, if the calendar reaches
that far. -/
def ofTicks? (ticks : Nat) : Option Timestamp := do
  let date ← Date.ofDayNumber? (ticks / ticksPerDay : Nat)
  return ⟨date, .ofNanoseconds (ticks % ticksPerDay * 100), .utc⟩

end Timestamp

def Date.ticks? (date : Date) : Option Nat :=
  date.midnight.ticks?

end Cohort
