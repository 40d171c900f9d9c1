import Cohort.Text.Decimal

/-!
Calendar dates.

A date belongs to the proleptic Gregorian calendar, year 0 included, and its year lies between
-9999 and 9999.  It is kept as a year and a day of that year.  `Date.ofCalendar?` finds the date
with a given month and day, and `Date.dayNumber` counts days from 1 January of year 1.
-/

namespace Cohort

/-- Whether the proleptic Gregorian year has a 29 February. -/
def isLeapYear (year : Int) : Bool :=
  year % 4 == 0 && (year % 100 != 0 || year % 400 == 0)

def yearLength (year : Int) : Nat :=
  if isLeapYear year then 366 else 365

def monthLengths (year : Int) : List Nat :=
  [31, if isLeapYear year then 29 else 28, 31, 30, 31, 30, 31, 31, 30, 31, 30, 31]

/-- The days between 1 January of year 1 and 1 January of a year; negative for earlier years. -/
def daysBeforeYear (year : Int) : Int :=
  365 * (year - 1) + (year - 1) / 4 - (year - 1) / 100 + (year - 1) / 400

theorem daysBeforeYear_succ (year : Int) :
    daysBeforeYear (year + 1) = daysBeforeYear year + yearLength year := by
  simp only [daysBeforeYear, yearLength, isLeapYear, Bool.and_eq_true, Bool.or_eq_true,
    beq_iff_eq, bne_iff_ne]
  split <;> omega

theorem daysBeforeYear_le_add (year : Int) (years : Nat) :
    daysBeforeYear year ≤ daysBeforeYear (year + years) := by
  induction years with
  | zero => simp
  | succ years inductionHypothesis =>
      have step := daysBeforeYear_succ (year + years)
      rw [Int.natCast_succ, ← Int.add_assoc]
      omega

theorem le_of_daysBeforeYear_lt {first second : Int}
    (earlier : daysBeforeYear first < daysBeforeYear (second + 1)) : first ≤ second := by
  apply Int.not_lt.mp
  intro later
  have growth := daysBeforeYear_le_add (second + 1) (first - (second + 1)).toNat
  have distance : second + 1 + ((first - (second + 1)).toNat : Int) = first := by omega
  rw [distance] at growth
  omega

/-- A day of the calendar, with a year that is written with four digits and a sign. -/
structure Date where
  year : Int
  /-- The first of January is day 1. -/
  dayOfYear : Nat
  yearInRange : -9999 ≤ year ∧ year ≤ 9999
  dayInRange : 1 ≤ dayOfYear ∧ dayOfYear ≤ yearLength year
deriving DecidableEq

namespace Date

def ofYearDay? (year : Int) (dayOfYear : Nat) : Option Date :=
  if yearInRange : -9999 ≤ year ∧ year ≤ 9999 then
    if dayInRange : 1 ≤ dayOfYear ∧ dayOfYear ≤ yearLength year then
      some ⟨year, dayOfYear, yearInRange, dayInRange⟩
    else
      none
  else
    none

@[simp]
theorem ofYearDay?_year_dayOfYear (date : Date) :
    ofYearDay? date.year date.dayOfYear = some date := by
  simp [ofYearDay?, date.yearInRange, date.dayInRange]

theorem eq_of_ofYearDay?_eq_some {year : Int} {dayOfYear : Nat} {date : Date}
    (found : ofYearDay? year dayOfYear = some date) :
    date.year = year ∧ date.dayOfYear = dayOfYear := by
  unfold ofYearDay? at found
  split at found
  · split at found
    · cases found
      exact ⟨rfl, rfl⟩
    · contradiction
  · contradiction

def daysBeforeMonth (year : Int) (month : Nat) : Nat :=
  ((monthLengths year).take (month - 1)).foldl (· + ·) 0

def ofCalendar? (year : Int) (month day : Nat) : Option Date :=
  match month, (monthLengths year)[month - 1]? with
  | 0, _ => none
  | _, none => none
  | month, some length =>
      if 1 ≤ day ∧ day ≤ length then ofYearDay? year (daysBeforeMonth year month + day) else none

/-- Find the month and the day within it, walking over the lengths of the remaining months. -/
def locate : (lengths : List Nat) → (month day : Nat) → Nat × Nat
  | [], month, day => (month, day)
  | length :: later, month, day =>
      if day ≤ length then (month, day) else locate later (month + 1) (day - length)

def monthAndDay (date : Date) : Nat × Nat :=
  locate (monthLengths date.year) 1 date.dayOfYear

def month (date : Date) : Nat :=
  date.monthAndDay.1

def day (date : Date) : Nat :=
  date.monthAndDay.2

def endsMonth (date : Date) : Bool :=
  (monthLengths date.year)[date.month - 1]? == some date.day

/-- The days from 1 January of year 1 to a date; negative for earlier dates. -/
def dayNumber (date : Date) : Int :=
  daysBeforeYear date.year + date.dayOfYear - 1

/-- The year that holds the day with a given number.  Four centuries have 146097 days, and the
quotient is the year or the one before it. -/
def yearOfDayNumber (number : Int) : Int :=
  let guess := number * 400 / 146097 + 1
  if daysBeforeYear (guess + 1) ≤ number then guess + 1 else guess

theorem yearOfDayNumber_spec (number : Int) :
    daysBeforeYear (yearOfDayNumber number) ≤ number ∧
      number < daysBeforeYear (yearOfDayNumber number + 1) := by
  unfold yearOfDayNumber
  dsimp only
  by_cases late : daysBeforeYear (number * 400 / 146097 + 1 + 1) ≤ number
  · rw [if_pos late]
    refine ⟨late, ?_⟩
    unfold daysBeforeYear
    omega
  · rw [if_neg late]
    refine ⟨?_, by omega⟩
    unfold daysBeforeYear
    omega

def ofDayNumber? (number : Int) : Option Date :=
  let year := yearOfDayNumber number
  ofYearDay? year (number - daysBeforeYear year + 1).toNat

theorem yearOfDayNumber_eq {year number : Int} (begun : daysBeforeYear year ≤ number)
    (unfinished : number < daysBeforeYear (year + 1)) : yearOfDayNumber number = year := by
  have located := yearOfDayNumber_spec number
  apply Int.le_antisymm
  · exact le_of_daysBeforeYear_lt (Int.lt_of_le_of_lt located.1 unfinished)
  · exact le_of_daysBeforeYear_lt (Int.lt_of_le_of_lt begun located.2)

@[simp]
theorem ofDayNumber?_dayNumber (date : Date) : ofDayNumber? date.dayNumber = some date := by
  have length := daysBeforeYear_succ date.year
  have range := date.dayInRange
  have year : yearOfDayNumber date.dayNumber = date.year := by
    apply yearOfDayNumber_eq
    · unfold dayNumber
      omega
    · unfold dayNumber
      omega
  have day : (date.dayNumber - daysBeforeYear date.year + 1).toNat = date.dayOfYear := by
    unfold dayNumber
    omega
  simp only [ofDayNumber?, year, day, ofYearDay?_year_dayOfYear]

theorem dayNumber_of_ofDayNumber?_eq_some {number : Int} {date : Date}
    (found : ofDayNumber? number = some date) : date.dayNumber = number := by
  have located := yearOfDayNumber_spec number
  have fields := eq_of_ofYearDay?_eq_some found
  unfold dayNumber
  rw [fields.1, fields.2]
  omega

def text (date : Date) : String :=
  let sign := if date.year < 0 then ['-'] else []
  String.ofList (sign ++ Text.fixedWidth 4 date.year.natAbs ++ '-' :: Text.fixedWidth 2 date.month
    ++ '-' :: Text.fixedWidth 2 date.day)

end Date

end Cohort
