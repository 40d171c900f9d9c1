import Cohort.Script.DateLiteral
import Cohort.Token.Scanner
import Mathlib.Data.List.TakeWhile

/-!
# Dates as scripts write them

A word of the shape `DD/MM/YYYY` spells a day, a month and a year.  It is read as the date with
these parts, and every date from year 0 on is spelled by such a word.
-/

namespace Cohort

namespace Text

theorem fixedWidth_add_mul (width high low : Nat) :
    fixedWidth width (high * Nat.pow 10 width + low) = fixedWidth width low := by
  induction width generalizing high with
  | zero => rfl
  | succ width inductionHypothesis =>
      have positive : 0 < Nat.pow 10 width := Nat.pow_pos (by decide)
      have grown : Nat.pow 10 (width + 1) = Nat.pow 10 width * 10 := rfl
      have shifted : high * Nat.pow 10 (width + 1) = high * 10 * Nat.pow 10 width := by
        rw [grown, Nat.mul_assoc, Nat.mul_comm 10]
      have leading : (high * 10 * Nat.pow 10 width + low) / Nat.pow 10 width % 10 =
          low / Nat.pow 10 width % 10 := by
        rw [Nat.add_comm, Nat.add_mul_div_right _ _ positive, Nat.add_mul_mod_self_right]
      rw [fixedWidth, fixedWidth, shifted, inductionHypothesis, leading]

theorem exists_digitChar_of_isDigit {character : Char} (digit : character.isDigit = true) :
    ∃ number < 10, Nat.digitChar number = character := by
  obtain ⟨lower, upper⟩ : 48 ≤ character.toNat ∧ character.toNat ≤ 57 :=
    Char.isDigit_iff_toNat.mp digit
  have small : character.toNat - 48 < 10 := by omega
  refine ⟨character.toNat - 48, small, ?_⟩
  apply Char.toNat_inj.mp
  rw [Nat.toNat_digitChar_of_lt_ten small]
  omega

theorem digitsValue_lt {digits : List Char} (allDigits : ∀ digit ∈ digits, digit.isDigit = true) :
    digitsValue digits < Nat.pow 10 digits.length := by
  induction digits with
  | nil => simp
  | cons digit later inductionHypothesis =>
      rw [List.forall_mem_cons] at allDigits
      obtain ⟨number, small, rfl⟩ := exists_digitChar_of_isDigit allDigits.1
      have below := inductionHypothesis allDigits.2
      have scaled := Nat.mul_le_mul_right (Nat.pow 10 later.length) (Nat.le_of_lt_succ small)
      have grown : Nat.pow 10 (later.length + 1) = Nat.pow 10 later.length * 10 := rfl
      rw [digitsValue_cons number small, List.length_cons, grown]
      omega

/-- Digits are the only way to write the number that they stand for in their width. -/
theorem fixedWidth_digitsValue {digits : List Char}
    (allDigits : ∀ digit ∈ digits, digit.isDigit = true) :
    fixedWidth digits.length (digitsValue digits) = digits := by
  induction digits with
  | nil => rfl
  | cons digit later inductionHypothesis =>
      rw [List.forall_mem_cons] at allDigits
      obtain ⟨number, small, rfl⟩ := exists_digitChar_of_isDigit allDigits.1
      have below := digitsValue_lt allDigits.2
      have positive : 0 < Nat.pow 10 later.length := Nat.pow_pos (by decide)
      have leading : (number * Nat.pow 10 later.length + digitsValue later) /
          Nat.pow 10 later.length = number := by
        rw [Nat.add_comm, Nat.add_mul_div_right _ _ positive, Nat.div_eq_of_lt below,
          Nat.zero_add]
      rw [digitsValue_cons number small, List.length_cons, fixedWidth, leading,
        Nat.mod_eq_of_lt small, fixedWidth_add_mul, inductionHypothesis allDigits.2]

theorem readNatural?_fixedWidth {width number : Nat} (positive : 0 < width)
    (small : number < Nat.pow 10 width) : readNatural? (fixedWidth width number) = some number := by
  have written : fixedWidth width number ≠ [] := by
    apply List.ne_nil_of_length_pos
    rwa [length_fixedWidth]
  have allDigits : (fixedWidth width number).all Char.isDigit = true :=
    List.all_eq_true.mpr fun _ membership => isDigit_of_mem_fixedWidth membership
  rw [readNatural?, if_pos ⟨written, allDigits⟩, digitsValue_fixedWidth, Nat.mod_eq_of_lt small]

end Text

open Text

/-- The characters of `DD/MM/YYYY`. -/
def dateCharacters (day month year : Nat) : List Char :=
  fixedWidth 2 day ++ '/' :: (fixedWidth 2 month ++ '/' :: fixedWidth 4 year)

/-- Whether a word is `DD/MM/YYYY` for a day from 01 to 31, a month from 01 to 12 and a year of
four digits. -/
def HasDateShape (word : List Char) : Prop :=
  ∃ day month year, (1 ≤ day ∧ day ≤ 31) ∧ (1 ≤ month ∧ month ≤ 12) ∧ year ≤ 9999 ∧
    word = dateCharacters day month year

theorem isDateShape_dateCharacters {day month year : Nat} (dayInRange : 1 ≤ day ∧ day ≤ 31)
    (monthInRange : 1 ≤ month ∧ month ≤ 12) :
    isDateShape (dateCharacters day month year) = true := by
  have days : Nat.ofDigitChars 10 (fixedWidth 2 day) 0 = day := by
    have value := digitsValue_fixedWidth 2 day
    rwa [Nat.pow_eq, Nat.mod_eq_of_lt (by omega)] at value
  have months : Nat.ofDigitChars 10 (fixedWidth 2 month) 0 = month := by
    have value := digitsValue_fixedWidth 2 month
    rwa [Nat.pow_eq, Nat.mod_eq_of_lt (by omega)] at value
  have digits : ∀ number, (Nat.digitChar (number % 10)).isDigit = true := by
    intro number
    rw [Nat.isDigit_digitChar]
    exact decide_eq_true (Nat.mod_lt number (by decide))
  simp only [fixedWidth] at days months
  simp only [dateCharacters, fixedWidth, List.cons_append, List.nil_append, isDateShape, days,
    months, digits, List.all_cons, List.all_nil]
  simp [dayInRange, monthInRange]

theorem isDateShape_iff {word : List Char} : isDateShape word = true ↔ HasDateShape word := by
  constructor
  · intro shape
    unfold isDateShape at shape
    split at shape
    next d₁ d₂ m₁ m₂ y₁ y₂ y₃ y₄ =>
      simp only [Bool.and_eq_true, List.all_eq_true, decide_eq_true_eq] at shape
      obtain ⟨⟨⟨⟨allDigits, dayFrom⟩, dayTo⟩, monthFrom⟩, monthTo⟩ := shape
      have dayDigits : ∀ digit ∈ [d₁, d₂], digit.isDigit = true :=
        fun digit membership => allDigits digit (List.mem_append_left _ membership)
      have monthDigits : ∀ digit ∈ [m₁, m₂], digit.isDigit = true :=
        fun digit membership => allDigits digit
          (List.mem_append_right [d₁, d₂] (List.mem_append_left _ membership))
      have yearDigits : ∀ digit ∈ [y₁, y₂, y₃, y₄], digit.isDigit = true :=
        fun digit membership => allDigits digit
          (List.mem_append_right [d₁, d₂, m₁, m₂] membership)
      have yearSmall : digitsValue [y₁, y₂, y₃, y₄] < 10 ^ 4 := digitsValue_lt yearDigits
      refine ⟨digitsValue [d₁, d₂], digitsValue [m₁, m₂], digitsValue [y₁, y₂, y₃, y₄],
        ⟨dayFrom, dayTo⟩, ⟨monthFrom, monthTo⟩, by omega, ?_⟩
      have days : fixedWidth 2 (digitsValue [d₁, d₂]) = [d₁, d₂] :=
        fixedWidth_digitsValue dayDigits
      have months : fixedWidth 2 (digitsValue [m₁, m₂]) = [m₁, m₂] :=
        fixedWidth_digitsValue monthDigits
      have years : fixedWidth 4 (digitsValue [y₁, y₂, y₃, y₄]) = [y₁, y₂, y₃, y₄] :=
        fixedWidth_digitsValue yearDigits
      rw [dateCharacters, days, months, years]
      rfl
    next => contradiction
  · rintro ⟨day, month, year, dayInRange, monthInRange, -, rfl⟩
    exact isDateShape_dateCharacters dayInRange monthInRange

theorem splitAtSlash?_append {before : List Char} (noSlash : '/' ∉ before) (rest : List Char) :
    splitAtSlash? (before ++ '/' :: rest) = some (before, rest) := by
  have passes : ∀ character ∈ before, (character != '/') = true := by
    intro character membership
    apply bne_iff_ne.mpr
    exact fun slash => noSlash (slash ▸ membership)
  rw [splitAtSlash?, List.dropWhile_append_of_pos passes, List.takeWhile_append_of_pos passes]
  simp

theorem slash_notMem_fixedWidth (width number : Nat) : '/' ∉ fixedWidth width number :=
  fun membership => absurd (isDigit_of_mem_fixedWidth membership) (by decide)

theorem readPlusNatural?_fixedWidth {width number : Nat} (positive : 0 < width)
    (small : number < Nat.pow 10 width) :
    readPlusNatural? (fixedWidth width number) = some number := by
  unfold readPlusNatural?
  split
  next digits written =>
    have plus : '+' ∈ fixedWidth width number := by simp [written]
    exact absurd (isDigit_of_mem_fixedWidth plus) (by decide)
  next => exact readNatural?_fixedWidth positive small

theorem readSigned?_fixedWidth {width number : Nat} (positive : 0 < width)
    (small : number < Nat.pow 10 width) :
    readSigned? (fixedWidth width number) = some (number : Int) := by
  unfold readSigned?
  split
  next digits written =>
    have minus : '-' ∈ fixedWidth width number := by simp [written]
    exact absurd (isDigit_of_mem_fixedWidth minus) (by decide)
  next =>
    rw [readPlusNatural?_fixedWidth positive small]
    rfl

/-- A word of the shape of dates is read as the day, the month and the year that it spells. -/
theorem Date.ofLiteral?_dateCharacters {day month year : Nat} (dayBound : day ≤ 31)
    (monthBound : month ≤ 12) (yearBound : year ≤ 9999) :
    Date.ofLiteral? (String.ofList (dateCharacters day month year)) =
      Date.ofCalendar? year month day := by
  have years : (fixedWidth 4 year).takeWhile (· != '/') = fixedWidth 4 year := by
    apply List.takeWhile_eq_self_iff.mpr
    intro character membership
    apply bne_iff_ne.mpr
    exact fun slash => slash_notMem_fixedWidth 4 year (slash ▸ membership)
  unfold Date.ofLiteral?
  rw [String.toList_ofList, dateCharacters]
  simp only [splitAtSlash?_append (slash_notMem_fixedWidth _ _), years, Option.bind_eq_bind,
    Option.bind_some]
  rw [readPlusNatural?_fixedWidth (by decide) (Nat.lt_of_le_of_lt dayBound (by decide)),
    readPlusNatural?_fixedWidth (by decide) (Nat.lt_of_le_of_lt monthBound (by decide)),
    readSigned?_fixedWidth (by decide) (Nat.lt_of_le_of_lt yearBound (by decide))]
  rfl

namespace Date

/-- The days of some months together. -/
def total (lengths : List Nat) : Nat :=
  lengths.foldl (· + ·) 0

theorem total_cons (first : Nat) (later : List Nat) :
    total (first :: later) = first + total later := by
  rw [total, total, ← List.sum_eq_foldl_nat, ← List.sum_eq_foldl_nat, List.sum_cons]

/-- Walking over the lengths of the months finds the month that holds a day of the year, and the
day within it. -/
theorem locate_spec {lengths : List Nat} {day : Nat} (month : Nat) (positive : 1 ≤ day)
    (within : day ≤ total lengths) :
    ∃ passed length,
      locate lengths month day = (month + passed, day - total (lengths.take passed)) ∧
      lengths[passed]? = some length ∧ total (lengths.take passed) < day ∧
      day ≤ total (lengths.take passed) + length := by
  induction lengths generalizing month day with
  | nil => exact absurd within (Nat.not_le_of_lt positive)
  | cons first later inductionHypothesis =>
      rw [total_cons] at within
      by_cases here : day ≤ first
      · refine ⟨0, first, ?_, rfl, positive, ?_⟩
        · rw [locate, if_pos here]
          rfl
        · rwa [List.take_zero, total, List.foldl_nil, Nat.zero_add]
      · obtain ⟨passed, length, found, lengthFound, after, upTo⟩ :=
          @inductionHypothesis (day - first) (month + 1) (by omega) (by omega)
        refine ⟨passed + 1, length, ?_, lengthFound, ?_, ?_⟩
        · rw [locate, if_neg here, found, List.take_succ_cons, total_cons, Nat.sub_sub,
            Nat.add_assoc, Nat.add_comm 1]
        · rw [List.take_succ_cons, total_cons]
          omega
        · rw [List.take_succ_cons, total_cons]
          omega

theorem total_monthLengths (year : Int) : total (monthLengths year) = yearLength year := by
  unfold monthLengths yearLength
  by_cases leap : isLeapYear year = true <;> simp [leap, total]

theorem length_monthLengths (year : Int) : (monthLengths year).length = 12 :=
  rfl

theorem le_of_mem_monthLengths {year : Int} {length : Nat}
    (membership : length ∈ monthLengths year) : length ≤ 31 := by
  unfold monthLengths at membership
  by_cases leap : isLeapYear year = true <;> simp [leap] at membership <;> omega

/-- The month and the day of a date are those of the calendar, which gives the date back. -/
theorem month_day_spec (date : Date) :
    (1 ≤ date.month ∧ date.month ≤ 12) ∧ (1 ≤ date.day ∧ date.day ≤ 31) ∧
      ofCalendar? date.year date.month date.day = some date := by
  have range := date.dayInRange
  have within : date.dayOfYear ≤ total (monthLengths date.year) := by
    rw [total_monthLengths]
    exact range.2
  obtain ⟨passed, length, found, lengthFound, after, upTo⟩ :=
    locate_spec 1 range.1 within
  have months : date.month = 1 + passed := congrArg Prod.fst found
  have days : date.day = date.dayOfYear - total ((monthLengths date.year).take passed) :=
    congrArg Prod.snd found
  obtain ⟨inYear, rfl⟩ := List.getElem?_eq_some_iff.mp lengthFound
  have short := le_of_mem_monthLengths (List.getElem_mem inYear)
  rw [length_monthLengths] at inYear
  refine ⟨by omega, by omega, ?_⟩
  have before : daysBeforeMonth date.year date.month =
      total ((monthLengths date.year).take passed) := by
    rw [daysBeforeMonth, months, Nat.add_sub_cancel_left, total]
  have restored : daysBeforeMonth date.year date.month + date.day = date.dayOfYear := by
    omega
  have monthFound : (monthLengths date.year)[date.month - 1]? =
      some (monthLengths date.year)[passed] := by
    rw [months, Nat.add_sub_cancel_left]
    exact lengthFound
  unfold ofCalendar?
  rw [monthFound]
  split
  next zero _ => omega
  next missing => contradiction
  next length found _ =>
    rw [← Option.some.inj found, if_pos (by omega), restored, ofYearDay?_year_dayOfYear]

theorem year_of_ofCalendar? {year : Int} {month day : Nat} {date : Date}
    (found : ofCalendar? year month day = some date) : date.year = year := by
  unfold ofCalendar? at found
  split at found
  next => contradiction
  next => contradiction
  next =>
    split at found
    next => exact (eq_of_ofYearDay?_eq_some found).1
    next => contradiction

/-- The characters that spell a date. -/
def characters (date : Date) : List Char :=
  dateCharacters date.day date.month date.year.toNat

/-- A date from year 0 on is spelled by a word of the shape of dates that is read as this date. -/
theorem characters_spec {date : Date} (notBefore : 0 ≤ date.year) :
    HasDateShape date.characters ∧ ofLiteral? (String.ofList date.characters) = some date := by
  obtain ⟨months, days, found⟩ := month_day_spec date
  have years := date.yearInRange
  have small : date.year.toNat ≤ 9999 := by omega
  refine ⟨⟨_, _, _, days, months, small, rfl⟩, ?_⟩
  rw [characters, ofLiteral?_dateCharacters days.2 months.2 small, Int.toNat_of_nonneg notBefore,
    found]

/-- A word of the shape of dates is read as a date from year 0 on, if it is read at all. -/
theorem year_nonneg_of_ofLiteral? {word : List Char} {date : Date} (shape : HasDateShape word)
    (found : ofLiteral? (String.ofList word) = some date) : 0 ≤ date.year := by
  obtain ⟨day, month, year, days, months, small, rfl⟩ := shape
  rw [ofLiteral?_dateCharacters days.2 months.2 small] at found
  rw [year_of_ofCalendar? found]
  exact Int.natCast_nonneg year

end Date

end Cohort
