import Cohort.Proofs.Calendar.DateLiteral
import Cohort.Proofs.Text.Digits
import Mathlib.Algebra.BigOperators.Intervals
import Mathlib.Tactic.IntervalCases

/-!
# Days of months

The calendar by its own rules, with the length of every month, and dates found by day, month and
year as the days that it has.
-/

namespace Cohort

/-- The last day of a month of the proleptic Gregorian calendar. -/
def lastDayOfMonth (year : Int) : (month : Nat) → Nat
  | 2 => if 4 ∣ year ∧ (100 ∣ year → 400 ∣ year) then 29 else 28
  | 4 | 6 | 9 | 11 => 30
  | _ => 31

namespace Date

/-- Whether a date is a day of a month of a year: it follows all days of the months before. -/
structure IsDayOf (year : Int) (month day : Nat) (date : Date) : Prop where
  inYear : date.year = year
  isMonth : 1 ≤ month ∧ month ≤ 12
  inMonth : 1 ≤ day ∧ day ≤ lastDayOfMonth year month
  dayOfYear : date.dayOfYear = ∑ earlier ∈ Finset.Ico 1 month, lastDayOfMonth year earlier + day

theorem isLeapYear_iff {year : Int} :
    isLeapYear year = true ↔ 4 ∣ year ∧ (100 ∣ year → 400 ∣ year) := by
  simp only [isLeapYear, Bool.and_eq_true, Bool.or_eq_true, beq_iff_eq, bne_iff_ne]
  omega

theorem getElem?_monthLengths {year : Int} {month : Nat} (isMonth : 1 ≤ month ∧ month ≤ 12) :
    (monthLengths year)[month - 1]? = some (lastDayOfMonth year month) := by
  obtain ⟨first, last⟩ := isMonth
  by_cases february : month = 2
  · subst february
    simp [monthLengths, lastDayOfMonth, isLeapYear_iff]
  · interval_cases month
    all_goals first | contradiction | rfl

theorem total_take_monthLengths {year : Int} {passed : Nat} (inYear : passed ≤ 11) :
    total ((monthLengths year).take passed) =
      ∑ earlier ∈ Finset.Ico 1 (passed + 1), lastDayOfMonth year earlier := by
  induction passed with
  | zero => rfl
  | succ passed inductionHypothesis =>
      have found := @getElem?_monthLengths year (passed + 1) ⟨by omega, by omega⟩
      rw [Nat.add_sub_cancel] at found
      rw [Finset.sum_Ico_succ_top (by omega), ← inductionHypothesis (by omega),
        List.take_add_one, found]
      exact List.foldl_append

theorem ofYearDay?_eq_some_iff {year : Int} {dayOfYear : Nat} {date : Date} :
    ofYearDay? year dayOfYear = some date ↔ date.year = year ∧ date.dayOfYear = dayOfYear := by
  constructor
  · exact eq_of_ofYearDay?_eq_some
  · rintro ⟨rfl, rfl⟩
    exact ofYearDay?_year_dayOfYear date

theorem isMonth_of_getElem?_monthLengths {year : Int} {month length : Nat} (notZero : month ≠ 0)
    (found : (monthLengths year)[month - 1]? = some length) :
    (1 ≤ month ∧ month ≤ 12) ∧ length = lastDayOfMonth year month := by
  obtain ⟨inYear, -⟩ := List.getElem?_eq_some_iff.mp found
  rw [length_monthLengths] at inYear
  have isMonth : 1 ≤ month ∧ month ≤ 12 := by omega
  rw [getElem?_monthLengths isMonth] at found
  exact ⟨isMonth, (Option.some.inj found).symm⟩

theorem daysBeforeMonth_eq_sum {year : Int} {month : Nat} (isMonth : 1 ≤ month ∧ month ≤ 12) :
    daysBeforeMonth year month = ∑ earlier ∈ Finset.Ico 1 month, lastDayOfMonth year earlier := by
  have before := @total_take_monthLengths year (month - 1) (by omega)
  rwa [Nat.sub_add_cancel isMonth.1] at before

/-- The date with a given year, month and day is that day of the calendar, if there is one. -/
theorem ofCalendar?_eq_some_iff {year : Int} {month day : Nat} {date : Date} :
    ofCalendar? year month day = some date ↔ date.IsDayOf year month day := by
  unfold ofCalendar?
  split
  next =>
    refine ⟨nofun, fun isDay => ?_⟩
    exact absurd isDay.isMonth.1 (by decide)
  next missing =>
    refine ⟨nofun, fun isDay => ?_⟩
    rw [getElem?_monthLengths isDay.isMonth] at missing
    contradiction
  next length notZero found =>
    obtain ⟨isMonth, rfl⟩ := isMonth_of_getElem?_monthLengths notZero found
    rw [daysBeforeMonth_eq_sum isMonth]
    constructor
    · intro looked
      split at looked
      next inMonth =>
        obtain ⟨inYear, dayOfYear⟩ := ofYearDay?_eq_some_iff.mp looked
        exact ⟨inYear, isMonth, inMonth, dayOfYear⟩
      next => contradiction
    · rintro ⟨inYear, -, inMonth, dayOfYear⟩
      rw [if_pos inMonth]
      exact ofYearDay?_eq_some_iff.mpr ⟨inYear, dayOfYear⟩

end Date

/-!
## Texts that are read as dates
-/

namespace Text

/-- Digits, which a plus sign may come before. -/
inductive SpellsNatural : List Char → Nat → Prop where
  | plain {digits : List Char} {number : Nat} :
      IsDecimal digits number → SpellsNatural digits number
  | plus {digits : List Char} {number : Nat} :
      IsDecimal digits number → SpellsNatural ('+' :: digits) number

/-- Digits, which a sign may come before. -/
inductive SpellsInteger : List Char → Int → Prop where
  | natural {text : List Char} {number : Nat} :
      SpellsNatural text number → SpellsInteger text number
  | minus {digits : List Char} {number : Nat} :
      IsDecimal digits number → SpellsInteger ('-' :: digits) (-number)

end Text

open Text

theorem readPlusNatural?_eq_some_iff {text : List Char} {number : Nat} :
    readPlusNatural? text = some number ↔ SpellsNatural text number := by
  unfold readPlusNatural?
  split
  next digits =>
    rw [readNatural?_eq_some_iff]
    constructor
    · exact .plus
    · intro spells
      cases spells with
      | plain decimal => exact absurd decimal (IsDecimal.not_cons (by decide))
      | plus decimal => exact decimal
  next noPlus =>
    rw [readNatural?_eq_some_iff]
    constructor
    · exact .plain
    · intro spells
      cases spells with
      | plain decimal => exact decimal
      | plus decimal => exact absurd rfl (noPlus _)

theorem readSigned?_eq_some_iff {text : List Char} {number : Int} :
    readSigned? text = some number ↔ SpellsInteger text number := by
  unfold readSigned?
  split
  next digits =>
    constructor
    · intro read
      cases found : readNatural? digits with
      | none =>
          rw [found] at read
          contradiction
      | some size =>
          rw [found] at read
          obtain rfl : -(size : Int) = number := Option.some.inj read
          exact .minus (readNatural?_eq_some_iff.mp found)
    · intro spells
      cases spells with
      | natural spells =>
          cases spells with
          | plain decimal => exact absurd decimal (IsDecimal.not_cons (by decide))
      | minus decimal =>
          rw [readNatural?_eq_some_iff.mpr decimal]
          rfl
  next noMinus =>
    constructor
    · intro read
      cases found : readPlusNatural? text with
      | none =>
          rw [found] at read
          contradiction
      | some size =>
          rw [found] at read
          obtain rfl : (size : Int) = number := Option.some.inj read
          exact .natural (readPlusNatural?_eq_some_iff.mp found)
    · intro spells
      cases spells with
      | natural spells =>
          rw [readPlusNatural?_eq_some_iff.mpr spells]
          rfl
      | minus decimal => exact absurd rfl (noMinus _)

theorem Text.IsDecimal.slash_notMem {digits : List Char} {number : Nat}
    (decimal : IsDecimal digits number) : '/' ∉ digits :=
  fun membership => absurd (decimal.allDigits _ membership) (by decide)

theorem Text.SpellsNatural.slash_notMem {text : List Char} {number : Nat}
    (spells : SpellsNatural text number) : '/' ∉ text := by
  cases spells with
  | plain decimal => exact decimal.slash_notMem
  | plus decimal => simpa using decimal.slash_notMem

theorem Text.SpellsInteger.slash_notMem {text : List Char} {number : Int}
    (spells : SpellsInteger text number) : '/' ∉ text := by
  cases spells with
  | natural spells => exact spells.slash_notMem
  | minus decimal => simpa using decimal.slash_notMem

theorem splitAtSlash?_eq_some_iff {text before rest : List Char} :
    splitAtSlash? text = some (before, rest) ↔ '/' ∉ before ∧ text = before ++ '/' :: rest := by
  constructor
  · intro found
    unfold splitAtSlash? at found
    split at found
    next => contradiction
    next slash behind dropped =>
      obtain ⟨rfl, rfl⟩ := Prod.mk.inj (Option.some.inj found)
      have stopped := List.head?_dropWhile_not (· != '/') text
      rw [dropped] at stopped
      obtain rfl : slash = '/' := by simpa using stopped
      constructor
      · intro membership
        have passed := List.mem_takeWhile_imp membership
        contradiction
      · rw [← dropped, List.takeWhile_append_dropWhile]
  · rintro ⟨noSlash, rfl⟩
    exact splitAtSlash?_append noSlash rest

namespace Date

/-- Whether a text stands for a date: a day, a month and a year with slashes between them, and a
third slash before anything else. -/
inductive SpelledBy : List Char → Date → Prop where
  | intro {dayText monthText yearText behind : List Char} {day month : Nat} {year : Int}
      {date : Date} :
      SpellsNatural dayText day → SpellsNatural monthText month → SpellsInteger yearText year →
      (∀ character ∈ behind.head?, character = '/') → date.IsDayOf year month day →
      SpelledBy (dayText ++ '/' :: (monthText ++ '/' :: (yearText ++ behind))) date

theorem takeWhile_append_of_slash {yearText behind : List Char} (noSlash : '/' ∉ yearText)
    (slash : ∀ character ∈ behind.head?, character = '/') :
    (yearText ++ behind).takeWhile (· != '/') = yearText := by
  have passes : ∀ character ∈ yearText, (character != '/') = true := by
    intro character membership
    apply bne_iff_ne.mpr
    exact fun same => noSlash (same ▸ membership)
  rw [List.takeWhile_append_of_pos passes]
  cases behind with
  | nil => simp
  | cons character rest => simp [slash character rfl]

/-- A literal is read as the date that it stands for, if it stands for one. -/
theorem ofLiteral?_eq_some_iff {text : String} {date : Date} :
    ofLiteral? text = some date ↔ SpelledBy text.toList date := by
  unfold ofLiteral?
  simp only [Option.bind_eq_bind, Option.bind_eq_some_iff, Prod.exists, splitAtSlash?_eq_some_iff,
    readPlusNatural?_eq_some_iff, readSigned?_eq_some_iff, ofCalendar?_eq_some_iff]
  constructor
  · rintro ⟨dayText, rest, ⟨-, dayCut⟩, monthText, behind, ⟨-, monthCut⟩, day, days, month, months,
      year, years, isDay⟩
    have slash : ∀ character ∈ (behind.dropWhile (· != '/')).head?, character = '/' := by
      intro character membership
      have stopped := List.head?_dropWhile_not (· != '/') behind
      rw [Option.mem_def.mp membership] at stopped
      simpa using stopped
    have spelled := SpelledBy.intro days months years slash isDay
    rw [List.takeWhile_append_dropWhile, ← monthCut, ← dayCut] at spelled
    exact spelled
  · intro spelled
    generalize same : text.toList = characters at spelled
    cases spelled with
    | @intro dayText monthText yearText behind day month year _ days months years slash isDay =>
        refine ⟨dayText, _, ⟨days.slash_notMem, rfl⟩, monthText, _, ⟨months.slash_notMem, rfl⟩,
          day, days, month, months, year, ?_, isDay⟩
        rwa [takeWhile_append_of_slash years.slash_notMem slash]

end Date

end Cohort
