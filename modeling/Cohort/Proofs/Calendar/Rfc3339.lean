import Cohort.Calendar.Rfc3339
import Cohort.Proofs.Calendar.DateLiteral
import Cohort.Proofs.Calendar.Ticks
import Cohort.Proofs.Text.Digits
import Mathlib.Data.List.DropRight
import Mathlib.Data.Option.Basic

/-!
# Reading timestamps back

A timestamp that the format of RFC 3339 can express is read back from its text, with its local
date, its time of day to the nanosecond and its offset.  A bare date is read back as its start in
UTC.
-/

namespace Cohort

open Text

namespace Text

theorem readFixedWidth?_of_lt {width number : Nat} (small : number < Nat.pow 10 width)
    (rest : List Char) :
    readFixedWidth? width (fixedWidth width number ++ rest) = some (number, rest) := by
  rw [readFixedWidth?_fixedWidth, Nat.mod_eq_of_lt small]

@[simp]
theorem readMark?_cons (mark : Char) (rest : List Char) :
    readMark? mark (mark :: rest) = some rest := by
  simp [readMark?]

theorem exists_append_zeros (digits : List Char) :
    ∃ count, dropTrailingZeros digits ++ List.replicate count '0' = digits := by
  have zeros : ∀ zero ∈ digits.rtakeWhile (· == '0'), zero = '0' := by
    intro zero membership
    simpa using List.mem_rtakeWhile_imp membership
  refine ⟨(digits.rtakeWhile (· == '0')).length, ?_⟩
  rw [← List.eq_replicate_of_mem zeros]
  exact List.rdropWhile_append_rtakeWhile

end Text

theorem Date.toList_text {date : Date} (notBefore : 0 ≤ date.year) :
    date.text.toList =
      fixedWidth 4 date.year.toNat ++ '-' :: (fixedWidth 2 date.month ++
        '-' :: fixedWidth 2 date.day) := by
  have sign : ¬date.year < 0 := Int.not_lt.mpr notBefore
  have size : date.year.natAbs = date.year.toNat := by omega
  simp [text, sign, size]

namespace Timestamp

theorem readDateParts?_append {year month day : Nat} (yearBound : year ≤ 9999)
    (monthBound : month ≤ 12) (dayBound : day ≤ 31) (rest : List Char) :
    readDateParts? (fixedWidth 4 year ++ '-' :: (fixedWidth 2 month ++
        '-' :: (fixedWidth 2 day ++ rest))) = some ((year, month, day), rest) := by
  have years : year < Nat.pow 10 4 := Nat.lt_of_le_of_lt yearBound (by decide)
  have months : month < Nat.pow 10 2 := Nat.lt_of_le_of_lt monthBound (by decide)
  have days : day < Nat.pow 10 2 := Nat.lt_of_le_of_lt dayBound (by decide)
  simp [readDateParts?, readFixedWidth?_of_lt, years, months, days]

theorem readClockParts?_append {hour minute second : Nat} (hourBound : hour < 24)
    (minuteBound : minute < 60) (secondBound : second < 60) (rest : List Char) :
    readClockParts? (fixedWidth 2 hour ++ ':' :: (fixedWidth 2 minute ++
        ':' :: (fixedWidth 2 second ++ rest))) = some ((hour, minute, second), rest) := by
  have hours : hour < Nat.pow 10 2 := Nat.lt_of_lt_of_le hourBound (by decide)
  have minutes : minute < Nat.pow 10 2 := Nat.lt_of_lt_of_le minuteBound (by decide)
  have seconds : second < Nat.pow 10 2 := Nat.lt_of_lt_of_le secondBound (by decide)
  simp [readClockParts?, readFixedWidth?_of_lt, hours, minutes, seconds]

/-!
## Fractions of a second
-/

theorem length_fractionDigits_le (nanosecond : Nat) : (fractionDigits nanosecond).length ≤ 9 := by
  rcases exists_append_zeros (fixedWidth 9 nanosecond) with ⟨count, whole⟩
  have lengths := congrArg List.length whole
  simp only [List.length_append, List.length_replicate, length_fixedWidth] at lengths
  unfold fractionDigits
  omega

theorem isDigit_of_mem_fractionDigits {nanosecond : Nat} {character : Char}
    (membership : character ∈ fractionDigits nanosecond) : character.isDigit = true := by
  rcases exists_append_zeros (fixedWidth 9 nanosecond) with ⟨count, whole⟩
  have inWhole : character ∈ fixedWidth 9 nanosecond := by
    rw [← whole]
    exact List.mem_append_left _ membership
  exact isDigit_of_mem_fixedWidth inWhole

theorem digitsValue_fractionDigits {nanosecond : Nat} (small : nanosecond < 1000000000) :
    digitsValue (fractionDigits nanosecond) *
      Nat.pow 10 (9 - (fractionDigits nanosecond).length) = nanosecond := by
  rcases exists_append_zeros (fixedWidth 9 nanosecond) with ⟨count, whole⟩
  have lengths := congrArg List.length whole
  simp only [List.length_append, List.length_replicate, length_fixedWidth] at lengths
  have missing : 9 - (fractionDigits nanosecond).length = count := by
    unfold fractionDigits
    omega
  rw [missing, ← digitsValue_append_zeros, fractionDigits, whole, digitsValue_fixedWidth]
  exact Nat.mod_eq_of_lt small

/-- A fraction is read back whatever mark follows it. -/
theorem readFraction?_append {nanosecond : Nat} (small : nanosecond < 1000000000) {mark : Char}
    (noDigit : mark.isDigit = false) (noPoint : mark ≠ '.') (rest : List Char) :
    readFraction? ((if fractionDigits nanosecond = [] then []
        else '.' :: fractionDigits nanosecond) ++ mark :: rest) =
      some (nanosecond, mark :: rest) := by
  have value := digitsValue_fractionDigits small
  by_cases none : fractionDigits nanosecond = []
  · simp only [none, digitsValue_nil, Nat.zero_mul] at value
    simp [none, readFraction?, noPoint, value]
  · have digits : ∀ digit ∈ fractionDigits nanosecond, digit.isDigit = true :=
      fun _ membership => isDigit_of_mem_fractionDigits membership
    have kept : (fractionDigits nanosecond).take 9 = fractionDigits nanosecond :=
      List.take_of_length_le (length_fractionDigits_le nanosecond)
    simp only [if_neg none, List.cons_append, readFraction?,
      List.takeWhile_append_of_pos digits, List.dropWhile_append_of_pos digits]
    simpa [noDigit, none, kept] using value

/-!
## Offsets
-/

theorem natAbs_signed (offset : UtcOffset) (size : Nat) : (offset.signed size).natAbs = size := by
  unfold UtcOffset.signed
  cases offset.isBehind <;> simp

theorem offsetText_utc : offsetText .utc = ['Z'] :=
  rfl

theorem offsetText_of_ne {offset : UtcOffset} (elsewhere : offset ≠ .utc) :
    offsetText offset =
      (if offset.isBehind then '-' else '+') :: (fixedWidth 2 (offset.seconds.natAbs / 3600) ++
        ':' :: fixedWidth 2 (offset.seconds.natAbs / 60 % 60)) := by
  simp [offsetText, elsewhere, UtcOffset.parts, natAbs_signed]

theorem exists_mark_offsetText (offset : UtcOffset) :
    ∃ mark rest, offsetText offset = mark :: rest ∧ mark.isDigit = false ∧ mark ≠ '.' := by
  by_cases inUtc : offset = .utc
  · subst inUtc
    exact ⟨'Z', [], offsetText_utc, by decide, by decide⟩
  · refine ⟨_, _, offsetText_of_ne inUtc, ?_⟩
    cases offset.isBehind <;> decide

/-- An offset of whole minutes and less than a day is read back from its text. -/
theorem readOffset?_offsetText {offset : UtcOffset} (hours : offset.parts.1.natAbs ≤ 23)
    (seconds : offset.parts.2.2 = 0) : readOffset? (offsetText offset) = some offset := by
  by_cases inUtc : offset = .utc
  · subst inUtc
    rfl
  · have restored := UtcOffset.ofParts?_parts offset
    rw [seconds] at restored
    simp only [UtcOffset.parts, natAbs_signed] at hours restored
    have hoursSmall : offset.seconds.natAbs / 3600 < Nat.pow 10 2 :=
      Nat.lt_of_le_of_lt hours (by decide)
    have minutesBound : offset.seconds.natAbs / 60 % 60 ≤ 59 := by omega
    have minutesSmall : offset.seconds.natAbs / 60 % 60 < Nat.pow 10 2 :=
      Nat.lt_of_le_of_lt minutesBound (by decide)
    have readMinutes := readFixedWidth?_of_lt minutesSmall []
    rw [List.append_nil] at readMinutes
    rw [offsetText_of_ne inUtc, ← restored]
    cases behind : offset.isBehind <;>
      simp [readOffset?, UtcOffset.signed, behind, readFixedWidth?_of_lt, hoursSmall, readMinutes,
        hours, minutesBound]

/-- A timestamp that RFC 3339 can express is read back from its text. -/
theorem ofRfc3339?_rfc3339 {timestamp : Timestamp} (expressible : timestamp.isRfc3339 = true) :
    ofRfc3339? timestamp.rfc3339 = some timestamp := by
  rcases timestamp with ⟨date, time, offset⟩
  simp only [isRfc3339, Bool.and_eq_true, decide_eq_true_eq, beq_iff_eq] at expressible
  rcases expressible with ⟨⟨notBefore, hours⟩, seconds⟩
  rcases date.month_day_spec with ⟨months, days, found⟩
  rcases exists_mark_offsetText offset with ⟨mark, rest, marked, noDigit, noPoint⟩
  have years : date.year.toNat ≤ 9999 := by
    have := date.yearInRange
    omega
  have year : (date.year.toNat : Int) = date.year := Int.toNat_of_nonneg notBefore
  have readOffset := readOffset?_offsetText hours seconds
  have noLeap : ¬(time.second : Nat) = 60 := Nat.ne_of_lt time.second.isLt
  have restored : TimeOfDay.ofParts? time.hour time.minute time.second time.nanosecond =
      some time := by
    simp [TimeOfDay.ofParts?]
  rw [marked] at readOffset
  simp only [rfc3339, Date.toList_text notBefore, marked, List.append_assoc, List.cons_append]
  simp [ofRfc3339?, readDateParts?_append years months.2 days.2, readClockParts?_append,
    readFraction?_append time.nanosecond.isLt noDigit noPoint, readOffset, year, found, noLeap,
    restored]

theorem eq_of_text_eq {first second : Timestamp} (expressible : first.isRfc3339 = true)
    (otherExpressible : second.isRfc3339 = true) (same : first.text = second.text) :
    first = second := by
  simp only [text, expressible, otherExpressible, if_true, String.ofList_inj] at same
  have read := ofRfc3339?_rfc3339 expressible
  rw [same, ofRfc3339?_rfc3339 otherExpressible] at read
  exact (Option.some.inj read).symm

/-- A moment on a tick is in UTC and not earlier than year 1, so RFC 3339 can express it. -/
theorem OnTick.isRfc3339 {timestamp : Timestamp} (onTick : timestamp.OnTick) :
    timestamp.isRfc3339 = true := by
  have start := onTick.fromYearOne
  have time := timestamp.time.nanoseconds_lt
  rw [instant_of_inUtc onTick.inUtc] at start
  have counted : 0 ≤ timestamp.date.dayNumber := by omega
  have year := Date.dayNumber_nonneg_iff.mp counted
  have notBefore : 0 ≤ timestamp.date.year := by omega
  simp [Timestamp.isRfc3339, onTick.inUtc, notBefore]
  decide

theorem lineFeed_notMem_text {timestamp : Timestamp} (expressible : timestamp.isRfc3339 = true) :
    '\n' ∉ timestamp.text.toList := by
  have noDigit : ∀ {digits : List Char}, (∀ digit ∈ digits, digit.isDigit = true) →
      '\n' ∉ digits := fun digits membership => absurd (digits _ membership) (by decide)
  have fixed : ∀ width number, '\n' ∉ fixedWidth width number :=
    fun width number => noDigit fun _ membership => isDigit_of_mem_fixedWidth membership
  have fraction : ∀ nanosecond, '\n' ∉ fractionDigits nanosecond :=
    fun nanosecond => noDigit fun _ membership => isDigit_of_mem_fractionDigits membership
  have offset : '\n' ∉ offsetText timestamp.offset := by
    by_cases inUtc : timestamp.offset = .utc
    · rw [inUtc]
      decide
    · rw [offsetText_of_ne inUtc]
      cases timestamp.offset.isBehind <;> simp [fixed]
  have notBefore : 0 ≤ timestamp.date.year := by
    simp only [isRfc3339, Bool.and_eq_true, decide_eq_true_eq] at expressible
    exact expressible.1.1
  by_cases none : fractionDigits timestamp.time.nanosecond = []
  · simp [text, expressible, rfc3339, Date.toList_text notBefore, none, fixed, offset]
  · simp [text, expressible, rfc3339, Date.toList_text notBefore, none, fixed, offset, fraction]

theorem ofText?_text {timestamp : Timestamp} (expressible : timestamp.isRfc3339 = true) :
    ofText? timestamp.text = some timestamp := by
  have written : timestamp.text.toList = timestamp.rfc3339 := by
    simp [text, expressible]
  rw [ofText?, written, ofRfc3339?_rfc3339 expressible]
  rfl

/-!
## Bare dates
-/

theorem readDateParts?_date (date : Date) (rest : List Char) :
    readDateParts? (fixedWidth 4 date.year.natAbs ++ '-' :: (fixedWidth 2 date.month ++
        '-' :: (fixedWidth 2 date.day ++ rest))) =
      some ((date.year.natAbs, date.month, date.day), rest) := by
  have years := date.yearInRange
  obtain ⟨months, days, -⟩ := date.month_day_spec
  exact readDateParts?_append (by omega) months.2 days.2 rest

/-- A date is read back from its text, in which a minus stands before a year of the era before. -/
theorem readDate?_dateText (date : Date) : readDate? date.text.toList = some date := by
  obtain ⟨-, -, found⟩ := date.month_day_spec
  have parts := readDateParts?_date date []
  rw [List.append_nil] at parts
  generalize size : date.year.natAbs = years at parts
  by_cases before : date.year < 0
  · have year : -(years : Int) = date.year := by omega
    simp [readDate?, Date.text, before, size, parts, year, found]
  · have year : (years : Int) = date.year := by omega
    have written : date.text.toList = fixedWidth 4 years ++ '-' ::
        (fixedWidth 2 date.month ++ '-' :: fixedWidth 2 date.day) := by
      simp [Date.text, before, size]
    have digits : ∀ sign rest, date.text.toList = sign :: rest → sign.isDigit = true := by
      intro sign rest same
      rw [written, fixedWidth, List.cons_append] at same
      rw [← (List.cons.inj same).1, Nat.isDigit_digitChar]
      exact decide_eq_true (Nat.mod_lt _ (by decide))
    unfold readDate?
    split
    next sign unsigned signed =>
      split at signed
      next rest minus => exact absurd (digits _ _ minus) (by decide)
      next rest plus => exact absurd (digits _ _ plus) (by decide)
      next =>
        cases signed
        simp [written, parts, year, found]

/-- The text of a date stops where a separator and a time of day would have to follow. -/
theorem ofRfc3339?_dateText (date : Date) : ofRfc3339? date.text.toList = none := by
  by_cases before : date.year < 0
  · have noDigit : ∀ rest, readFixedWidth? 4 ('-' :: rest) = none := by
      intro rest
      simp [readFixedWidth?]
    simp [ofRfc3339?, readDateParts?, Date.text, before, noDigit]
  · have parts := readDateParts?_date date []
    rw [List.append_nil] at parts
    simp [ofRfc3339?, Date.text, before, parts]

theorem ofText?_dateText (date : Date) : ofText? date.text = some date.midnight := by
  rw [ofText?, ofRfc3339?_dateText, readDate?_dateText]
  rfl

end Timestamp

end Cohort
