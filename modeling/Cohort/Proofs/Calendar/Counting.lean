import Cohort.Proofs.Calendar.Ticks

/-!
# Counting ticks

Every moment from the start of year 1 on has a count, the whole ticks that have passed until then,
and every count up to the last tick of year 9999 has a timestamp.  Going from a moment to its count
and back leads to the last tick that is not after the moment.
-/

namespace Cohort

namespace Date

/-- The calendar has every day from 1 January of year 1 to 31 December of year 9999. -/
theorem exists_ofDayNumber? {number : Int} (start : 0 ≤ number) (finish : number ≤ 3652058) :
    ∃ date, ofDayNumber? number = some date := by
  have located := yearOfDayNumber_spec number
  have first : daysBeforeYear 1 = 0 := by decide
  have last : daysBeforeYear (9999 + 1) = 3652059 := by decide
  have length := daysBeforeYear_succ (yearOfDayNumber number)
  have fromYearOne : 1 ≤ yearOfDayNumber number := by
    apply le_of_daysBeforeYear_lt
    omega
  have toYear9999 : yearOfDayNumber number ≤ 9999 := by
    apply le_of_daysBeforeYear_lt
    omega
  have yearInRange : -9999 ≤ yearOfDayNumber number ∧ yearOfDayNumber number ≤ 9999 := by omega
  have dayInRange : 1 ≤ (number - daysBeforeYear (yearOfDayNumber number) + 1).toNat ∧
      (number - daysBeforeYear (yearOfDayNumber number) + 1).toNat ≤
        yearLength (yearOfDayNumber number) := by
    omega
  refine ⟨⟨_, _, yearInRange, dayInRange⟩, ?_⟩
  rw [ofDayNumber?, ofYearDay?, dif_pos yearInRange, dif_pos dayInRange]

end Date

namespace Timestamp

/-- A moment is counted from the start of year 1 on, and its count is that of the tick in which it
falls. -/
theorem ticks?_eq_some_iff {moment : Timestamp} {ticks : Nat} :
    moment.ticks? = some ticks ↔
      ticks * nanosecondsPerTick ≤ moment.instant ∧
        moment.instant < (ticks + 1) * nanosecondsPerTick := by
  unfold ticks? nanosecondsPerTick
  dsimp only
  constructor
  · intro counted
    split at counted
    next start =>
      obtain rfl := Option.some.inj counted
      omega
    next => contradiction
  · rintro ⟨reached, next⟩
    have start : 0 ≤ moment.instant / 100 := by omega
    rw [if_pos start]
    congr 1
    omega

theorem ticks?_eq_none_iff {moment : Timestamp} : moment.ticks? = none ↔ moment.instant < 0 := by
  unfold ticks? nanosecondsPerTick
  dsimp only
  constructor
  · intro uncounted
    split at uncounted
    next => contradiction
    next early => omega
  · intro early
    exact if_neg (by omega)

theorem isSome_ofTicks?_iff {ticks : Nat} : (ofTicks? ticks).isSome ↔ ticks ≤ lastTick := by
  rw [Option.isSome_iff_exists]
  constructor
  · rintro ⟨timestamp, found⟩
    obtain ⟨onTick, rfl⟩ := ofTicks?_eq_some_iff.mp found
    exact onTick.tickCount_le
  · intro within
    have finish : ((ticks / ticksPerDay : Nat) : Int) ≤ 3652058 := by
      unfold lastTick at within
      unfold ticksPerDay
      omega
    obtain ⟨date, found⟩ := Date.exists_ofDayNumber? (Int.natCast_nonneg _) finish
    refine ⟨⟨date, .ofNanoseconds (ticks % ticksPerDay * 100), .utc⟩, ?_⟩
    rw [ofTicks?, found]
    rfl

/-- Counts fit 64 bits: no clock is so far behind UTC that its moments are far beyond year 9999. -/
theorem lt_of_ticks?_eq_some {moment : Timestamp} {ticks : Nat}
    (counted : moment.ticks? = some ticks) : ticks < 18446744073709551616 := by
  have reached := (ticks?_eq_some_iff.mp counted).1
  have day := moment.date.dayNumber_le
  have time := moment.time.nanoseconds_lt
  have offset := moment.offset.inRange
  unfold instant nanosecondsPerTick at reached
  omega

/-!
### From the start of 1970

A moment may as well be given in nanoseconds from the start of 1970 in UTC, which has a count of
its own.
-/

/-- The ticks from the start of year 1 to the start of 1970 in UTC. -/
def ticksTo1970 : Nat :=
  621355968000000000

/-- The nanoseconds from the start of 1970 in UTC to the moment meant, which may precede it. -/
def nanosecondsFrom1970 (moment : Timestamp) : Int :=
  moment.instant - ticksTo1970 * nanosecondsPerTick

theorem nanosecondsFrom1970_eq_zero_iff {moment : Timestamp} :
    moment.nanosecondsFrom1970 = 0 ↔
      moment.instant = (Date.mk 1970 1 (by decide) (by decide)).midnight.instant := by
  have start : (Date.mk 1970 1 (by decide) (by decide)).midnight.instant =
      ticksTo1970 * nanosecondsPerTick := by
    decide
  rw [start]
  exact Int.sub_eq_zero

/-- The count of a moment is that of the start of 1970 and the whole ticks from there on, which are
negative for an earlier moment.  There is none if that does not fit 64 bits without a sign. -/
theorem ticks?_eq_from1970 (moment : Timestamp) :
    moment.ticks? =
      let ticks := moment.nanosecondsFrom1970 / nanosecondsPerTick + ticksTo1970
      if 0 ≤ ticks ∧ ticks < 18446744073709551616 then some ticks.toNat else none := by
  have shifted : moment.instant / nanosecondsPerTick =
      moment.nanosecondsFrom1970 / nanosecondsPerTick + ticksTo1970 := by
    unfold nanosecondsFrom1970 nanosecondsPerTick
    omega
  dsimp only
  rw [← shifted]
  cases counted : moment.ticks? with
  | none =>
      have early := ticks?_eq_none_iff.mp counted
      unfold nanosecondsPerTick
      rw [if_neg (by omega)]
  | some ticks =>
      have fits := lt_of_ticks?_eq_some counted
      have reached := ticks?_eq_some_iff.mp counted
      unfold nanosecondsPerTick at *
      have whole : moment.instant / 100 = ticks := by omega
      rw [whole, if_pos (by omega), Int.toNat_natCast]

/-- A count stands for the moment in UTC that is as many ticks from the start of 1970 as the count
is more than that of 1970 itself. -/
theorem ofTicks?_eq_some_iff_from1970 {ticks : Nat} {timestamp : Timestamp} :
    ofTicks? ticks = some timestamp ↔
      timestamp.offset = .utc ∧
        timestamp.nanosecondsFrom1970 = ((ticks : Int) - ticksTo1970) * nanosecondsPerTick := by
  have shifted : timestamp.nanosecondsFrom1970 =
        ((ticks : Int) - ticksTo1970) * nanosecondsPerTick ↔
      timestamp.instant = ticks * nanosecondsPerTick := by
    unfold nanosecondsFrom1970 nanosecondsPerTick
    omega
  rw [shifted]
  constructor
  · exact ofTicks?_eq_some
  · rintro ⟨inUtc, equality⟩
    exact ofTicks?_of_instant_eq inUtc equality

/-!
### Ticks as moments
-/

/-- The timestamp in UTC that is a number of ticks after the start of year 1, and is counted as
such. -/
structure IsTick (ticks : Nat) (timestamp : Timestamp) : Prop where
  inUtc : timestamp.offset = .utc
  instant : timestamp.instant = ticks * nanosecondsPerTick
  counted : timestamp.ticks? = some ticks

theorem isTick_of_ofTicks? {ticks : Nat} {timestamp : Timestamp}
    (found : ofTicks? ticks = some timestamp) : IsTick ticks timestamp := by
  obtain ⟨inUtc, instant⟩ := ofTicks?_eq_some found
  refine ⟨inUtc, instant, ticks?_eq_some_iff.mpr ?_⟩
  rw [instant]
  unfold nanosecondsPerTick
  omega

/-- The last of all ticks, also of those before year 1, that are not after a moment. -/
structure IsLastTick (moment tick : Timestamp) : Prop where
  wholeTicks : nanosecondsPerTick ∣ tick.instant
  notAfter : tick.instant ≤ moment.instant
  last : ∀ instant, nanosecondsPerTick ∣ instant → instant ≤ moment.instant →
    instant ≤ tick.instant

theorem IsTick.isLastTick {moment tick : Timestamp} {ticks : Nat} (isTick : IsTick ticks tick)
    (counted : moment.ticks? = some ticks) : IsLastTick moment tick := by
  obtain ⟨reached, next⟩ := ticks?_eq_some_iff.mp counted
  rw [← isTick.instant] at reached
  refine ⟨?_, reached, ?_⟩
  · rw [isTick.instant]
    exact Int.dvd_mul_left _ _
  · rintro instant whole notAfter
    have position := isTick.instant
    unfold nanosecondsPerTick at *
    omega

/-- The start of year 10000 in UTC, which the calendar does not reach. -/
def endOfCalendar : Int :=
  daysBeforeYear 10000 * nanosecondsPerDay

/-- Before the calendar ends, the count of a moment stands for the last tick not after it. -/
theorem exists_isLastTick {moment : Timestamp} {ticks : Nat}
    (counted : moment.ticks? = some ticks) (early : moment.instant < endOfCalendar) :
    ∃ tick, ofTicks? ticks = some tick ∧ IsLastTick moment tick := by
  have finish : endOfCalendar = 315537897600000000000 := by decide
  have within : ticks ≤ lastTick := by
    have reached := (ticks?_eq_some_iff.mp counted).1
    unfold nanosecondsPerTick at reached
    unfold lastTick
    omega
  obtain ⟨tick, found⟩ := Option.isSome_iff_exists.mp (isSome_ofTicks?_iff.mpr within)
  exact ⟨tick, found, (isTick_of_ofTicks? found).isLastTick counted⟩

theorem ticks?_mono {moment later : Timestamp} (notAfter : moment.instant ≤ later.instant)
    {ticks : Nat} (counted : moment.ticks? = some ticks) :
    ∃ more, later.ticks? = some more ∧ ticks ≤ more := by
  have reached := (ticks?_eq_some_iff.mp counted).1
  refine ⟨(later.instant / nanosecondsPerTick).toNat, ticks?_eq_some_iff.mpr ?_, ?_⟩
  · unfold nanosecondsPerTick at *
    omega
  · unfold nanosecondsPerTick at *
    omega

end Timestamp

namespace Date

theorem isSome_ticks?_iff {date : Date} : date.ticks?.isSome ↔ 1 ≤ date.year := by
  rw [Option.isSome_iff_exists, ← onTick_midnight_iff]
  constructor
  · rintro ⟨ticks, counted⟩
    exact (ticks?_eq_some_iff.mp counted).1
  · intro onTick
    exact ⟨_, ticks?_eq_some_iff.mpr ⟨onTick, rfl⟩⟩

/-- Every day that is counted begins a whole number of days after the first one. -/
theorem ticks_eq_of_ticks?_eq_some {date : Date} {ticks : Nat}
    (counted : date.ticks? = some ticks) :
    (ticks : Int) = 864000000000 * date.dayNumber := by
  obtain ⟨onTick, rfl⟩ := ticks?_eq_some_iff.mp counted
  have instant := onTick.instant_eq
  rw [instant_midnight] at instant
  unfold Timestamp.nanosecondsPerTick at instant
  omega

theorem ofTicks?_of_ticks?_eq_some {date : Date} {ticks : Nat}
    (counted : date.ticks? = some ticks) :
    Timestamp.ofTicks? ticks = some date.midnight :=
  Timestamp.ofTicks?_eq_some_iff.mpr (ticks?_eq_some_iff.mp counted)

end Date

namespace Timestamp

/-- Counts and moments convert into each other without loss but for parts of a tick: a count up to
the last tick has one moment and a moment from year 1 on has one count, both directions agree, and
a date is counted by its days. -/
theorem ticks?_agrees_with_ofTicks? :
    (∀ ticks, ((ofTicks? ticks).isSome ↔ ticks ≤ 3155378975999999999) ∧
      ∀ timestamp, ofTicks? ticks = some timestamp → IsTick ticks timestamp) ∧
    (∀ moment : Timestamp, (moment.ticks? = none ↔ moment.instant < 0) ∧
      (∀ ticks, moment.ticks? = some ticks ↔
        ticks * nanosecondsPerTick ≤ moment.instant ∧
          moment.instant < (ticks + 1) * nanosecondsPerTick) ∧
      (∀ other : Timestamp, other.instant = moment.instant → other.ticks? = moment.ticks?) ∧
      ∀ ticks, moment.ticks? = some ticks → ticks < 18446744073709551616 ∧
        (∀ later : Timestamp, moment.instant ≤ later.instant →
          ∃ more, later.ticks? = some more ∧ ticks ≤ more) ∧
        (moment.instant < endOfCalendar →
          ∃ tick, ofTicks? ticks = some tick ∧ IsLastTick moment tick)) ∧
    ∀ date : Date, (date.ticks?.isSome ↔ 1 ≤ date.year) ∧
      ∀ ticks, date.ticks? = some ticks →
        (ticks : Int) = 864000000000 * date.dayNumber ∧ ofTicks? ticks = some date.midnight := by
  refine ⟨?counts, ?moments, ?dates⟩
  case counts =>
    intro ticks
    exact ⟨isSome_ofTicks?_iff, fun timestamp => isTick_of_ofTicks?⟩
  case moments =>
    intro moment
    refine ⟨ticks?_eq_none_iff, fun ticks => ticks?_eq_some_iff, ?_, ?_⟩
    · intro other same
      rw [ticks?, ticks?, same]
    · intro ticks counted
      exact ⟨lt_of_ticks?_eq_some counted, fun later notAfter => ticks?_mono notAfter counted,
        exists_isLastTick counted⟩
  case dates =>
    intro date
    refine ⟨Date.isSome_ticks?_iff, fun ticks counted => ?_⟩
    exact ⟨Date.ticks_eq_of_ticks?_eq_some counted, Date.ofTicks?_of_ticks?_eq_some counted⟩

/-- A moment between two ticks, at 23:30:15.123456789. -/
def betweenTicks : Timestamp where
  date := ⟨2022, 103, by decide, by decide⟩
  time := .ofNanoseconds 84615123456789
  offset := .utc

/-- The same moment on a clock that is an hour and a half ahead of UTC, where the next day has
begun. -/
def betweenTicksAhead : Timestamp where
  date := ⟨2022, 104, by decide, by decide⟩
  time := .ofNanoseconds 3615123456789
  offset := { seconds := 5400 }

theorem ticks?_betweenTicks :
    betweenTicks.ticks? = some 637854894151234567 ∧
      betweenTicks.instant = betweenTicksAhead.instant ∧
      betweenTicks.ticks? = betweenTicksAhead.ticks? ∧
      (∃ more, betweenTicksAhead.ticks? = some more ∧ 637854894151234567 ≤ more) ∧
      betweenTicks.instant < endOfCalendar ∧
      (∃ tick, ofTicks? 637854894151234567 = some tick ∧ IsLastTick betweenTicks tick) ∧
      betweenTicks.date.ticks? = some 637854048000000000 ∧
      ofTicks? 637854048000000000 = some betweenTicks.date.midnight ∧
      IsTick 637854048000000000 betweenTicks.date.midnight := by
  obtain ⟨counts, moments, dates⟩ := ticks?_agrees_with_ofTicks?
  have counted : betweenTicks.ticks? = some 637854894151234567 := rfl
  have same : betweenTicks.instant = betweenTicksAhead.instant := by decide
  have early : betweenTicks.instant < endOfCalendar := by decide
  obtain ⟨-, -, onlyInstant, ofCount⟩ := moments betweenTicks
  obtain ⟨-, increases, restored⟩ := ofCount _ counted
  have day : betweenTicks.date.ticks? = some 637854048000000000 := rfl
  have begun := ((dates betweenTicks.date).2 _ day).2
  exact ⟨counted, same, (onlyInstant _ same.symm).symm, increases _ (Int.le_of_eq same), early,
    restored early, day, begun, (counts _).2 _ begun⟩

end Timestamp

end Cohort
