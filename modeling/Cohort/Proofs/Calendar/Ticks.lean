import Cohort.Calendar.Timestamp

/-!
# Ticks and timestamps

A count of ticks stands for the one timestamp in UTC that is so many ticks away from the start of
year 1, if the calendar reaches that far.  The start of a date in UTC is such a timestamp, unless
the date is earlier than year 1.
-/

namespace Cohort

theorem Date.dayNumber_le (date : Date) : date.dayNumber ≤ 3652058 := by
  have growth := daysBeforeYear_le_add (date.year + 1) (9999 - date.year).toNat
  have year : date.year + 1 + ((9999 - date.year).toNat : Int) = 10000 := by
    have := date.yearInRange
    omega
  have last : daysBeforeYear 10000 = 3652059 := by decide
  have step := daysBeforeYear_succ date.year
  have day := date.dayInRange
  rw [year, last] at growth
  unfold dayNumber
  omega

/-- Days are counted from year 1 on. -/
theorem Date.dayNumber_nonneg_iff {date : Date} : 0 ≤ date.dayNumber ↔ 1 ≤ date.year := by
  have first : daysBeforeYear 1 = 0 := by decide
  have step := daysBeforeYear_succ date.year
  have day := date.dayInRange
  unfold dayNumber
  constructor
  · intro counted
    apply le_of_daysBeforeYear_lt
    omega
  · intro later
    have growth := daysBeforeYear_le_add 1 (date.year - 1).toNat
    have year : 1 + ((date.year - 1).toNat : Int) = date.year := by omega
    rw [year] at growth
    omega

namespace Timestamp

/-- The ticks from the start of year 1 to the last moment of year 9999. -/
def lastTick : Nat :=
  3155378975999999999

/-- A moment in UTC that a count of ticks can stand for. -/
structure OnTick (timestamp : Timestamp) : Prop where
  inUtc : timestamp.offset = .utc
  fromYearOne : 0 ≤ timestamp.instant
  toYear9999 : timestamp.instant ≤ lastTick * nanosecondsPerTick
  wholeTicks : nanosecondsPerTick ∣ timestamp.instant

def tickCount (timestamp : Timestamp) : Nat :=
  (timestamp.instant / nanosecondsPerTick).toNat

theorem instant_of_inUtc {timestamp : Timestamp} (inUtc : timestamp.offset = .utc) :
    timestamp.instant =
      timestamp.date.dayNumber * 86400000000000 + timestamp.time.nanoseconds := by
  simp [instant, inUtc, UtcOffset.utc]

theorem midnight_of_midnightDate?_eq_some {timestamp : Timestamp} {date : Date}
    (inUtc : timestamp.offset = .utc) (found : timestamp.midnightDate? = some date) :
    date.midnight = timestamp := by
  unfold midnightDate? at found
  by_cases same : timestamp.instant = timestamp.date.midnight.instant
  · rw [if_pos same] at found
    rw [instant_of_inUtc inUtc, Date.instant_midnight] at same
    obtain ⟨day, time, offset⟩ := timestamp
    obtain rfl : day = date := Option.some.inj found
    obtain rfl : offset = .utc := inUtc
    have start : time.nanoseconds = 0 := by
      dsimp only at same
      omega
    rw [← TimeOfDay.ofNanoseconds_nanoseconds time, start]
    rfl
  · rw [if_neg same] at found
    cases found

theorem OnTick.instant_eq {timestamp : Timestamp} (onTick : timestamp.OnTick) :
    timestamp.instant = timestamp.tickCount * nanosecondsPerTick := by
  have start := onTick.fromYearOne
  have whole := onTick.wholeTicks
  unfold tickCount nanosecondsPerTick at *
  omega

theorem OnTick.tickCount_le {timestamp : Timestamp} (onTick : timestamp.OnTick) :
    timestamp.tickCount ≤ lastTick := by
  have finish := onTick.toYear9999
  unfold tickCount nanosecondsPerTick at *
  omega

theorem onTick_of_instant_eq {timestamp : Timestamp} {ticks : Nat}
    (inUtc : timestamp.offset = .utc) (equality : timestamp.instant = ticks * nanosecondsPerTick) :
    timestamp.OnTick ∧ timestamp.tickCount = ticks := by
  have written := instant_of_inUtc inUtc
  have day := timestamp.date.dayNumber_le
  have time := timestamp.time.nanoseconds_lt
  unfold nanosecondsPerTick at equality
  have count : timestamp.tickCount = ticks := by
    unfold tickCount nanosecondsPerTick
    omega
  refine ⟨⟨inUtc, ?_, ?_, ?_⟩, count⟩
  · omega
  · unfold lastTick nanosecondsPerTick
    omega
  · unfold nanosecondsPerTick
    omega

theorem ofTicks?_eq_some {ticks : Nat} {timestamp : Timestamp}
    (found : ofTicks? ticks = some timestamp) :
    timestamp.offset = .utc ∧ timestamp.instant = ticks * nanosecondsPerTick := by
  simp only [ofTicks?, Option.bind_eq_bind, Option.bind_eq_some_iff, Option.pure_def,
    Option.some.injEq] at found
  obtain ⟨date, dateFound, rfl⟩ := found
  have day := Date.dayNumber_of_ofDayNumber?_eq_some dateFound
  have time : (TimeOfDay.ofNanoseconds (ticks % ticksPerDay * 100)).nanoseconds =
      ticks % ticksPerDay * 100 := by
    apply TimeOfDay.nanoseconds_ofNanoseconds
    unfold ticksPerDay
    omega
  refine ⟨rfl, ?_⟩
  rw [instant_of_inUtc rfl, day, time]
  unfold ticksPerDay nanosecondsPerTick
  omega

theorem ofTicks?_of_instant_eq {ticks : Nat} {timestamp : Timestamp}
    (inUtc : timestamp.offset = .utc)
    (equality : timestamp.instant = ticks * nanosecondsPerTick) :
    ofTicks? ticks = some timestamp := by
  rw [instant_of_inUtc inUtc] at equality
  have small := timestamp.time.nanoseconds_lt
  unfold nanosecondsPerTick at equality
  have day : ((ticks / ticksPerDay : Nat) : Int) = timestamp.date.dayNumber := by
    unfold ticksPerDay
    omega
  have time : ticks % ticksPerDay * 100 = timestamp.time.nanoseconds := by
    unfold ticksPerDay
    omega
  simp only [ofTicks?, day, time, Date.ofDayNumber?_dayNumber,
    TimeOfDay.ofNanoseconds_nanoseconds, ← inUtc]
  rfl

/-- Counts of ticks stand for the moments on a tick, each for the one it counts up to. -/
theorem ofTicks?_eq_some_iff {ticks : Nat} {timestamp : Timestamp} :
    ofTicks? ticks = some timestamp ↔ timestamp.OnTick ∧ timestamp.tickCount = ticks := by
  constructor
  · intro found
    have meaning := ofTicks?_eq_some found
    exact onTick_of_instant_eq meaning.1 meaning.2
  · rintro ⟨onTick, rfl⟩
    exact ofTicks?_of_instant_eq onTick.inUtc onTick.instant_eq

theorem OnTick.eq_of_tickCount_eq {first second : Timestamp} (firstOnTick : first.OnTick)
    (secondOnTick : second.OnTick) (same : first.tickCount = second.tickCount) :
    first = second := by
  have found := ofTicks?_eq_some_iff.mpr ⟨firstOnTick, same⟩
  rw [ofTicks?_eq_some_iff.mpr ⟨secondOnTick, rfl⟩] at found
  exact (Option.some.inj found).symm

end Timestamp

namespace Date

/-- The start of a date in UTC is on a tick exactly when it is not earlier than year 1, and then
its ticks are counted. -/
theorem ticks?_eq_some_iff {date : Date} {ticks : Nat} :
    date.ticks? = some ticks ↔ date.midnight.OnTick ∧ date.midnight.tickCount = ticks := by
  have written := date.instant_midnight
  unfold ticks? Timestamp.ticks?
  dsimp only
  constructor
  · intro counted
    split at counted
    next start =>
      apply Timestamp.onTick_of_instant_eq rfl
      rw [← Option.some.inj counted]
      unfold Timestamp.nanosecondsPerTick at *
      omega
    next => contradiction
  · rintro ⟨onTick, rfl⟩
    have start := onTick.fromYearOne
    rw [if_pos (Int.ediv_nonneg start (by decide))]
    rfl

theorem onTick_midnight_iff {date : Date} : date.midnight.OnTick ↔ 1 ≤ date.year := by
  have written := date.instant_midnight
  rw [← dayNumber_nonneg_iff]
  constructor
  · intro onTick
    have start := onTick.fromYearOne
    omega
  · intro counted
    have count : date.midnight.instant =
        (date.dayNumber * 864000000000).toNat * Timestamp.nanosecondsPerTick := by
      unfold Timestamp.nanosecondsPerTick
      omega
    exact (Timestamp.onTick_of_instant_eq rfl count).1

end Date

end Cohort
