import Cohort.Proofs.Script.DatePlace
import Cohort.Proofs.Script.Nesting
import Cohort.Proofs.Token.Continuation

/-!
# Words in the place of dates

What is read when a word stands between `DATE:` and a semicolon, in a text that is a script with
some date there.  Words of the shape of dates stand for the days of the calendar that they spell,
and no other word is taken.
-/

namespace Cohort

/-!
## Tokens of words
-/

namespace Token

variable {word : String} {position : Position}

theorem ofWord_of_hasDateShape (shape : HasDateShape word.toList) :
    ofWord word.toList position = ⟨.dateLiteral, some word, position⟩ := by
  have token := Lexeme.token_of_hasDateShape shape position
  rwa [String.ofList_toList] at token

theorem spellsDate_literal_iff {date : Date} :
    SpellsDate ⟨.dateLiteral, some word, position⟩ date ↔ Date.SpelledBy word.toList date := by
  constructor
  · rintro ⟨-, text, carried, spelled⟩
    rwa [Option.some.inj carried]
  · exact fun spelled => ⟨rfl, word, rfl, spelled⟩

end Token

/-- Whether a word is `DD/MM/YYYY` for a day from 01 to 31, a month from 01 to 12 and a year of
four digits. -/
structure SpellsDay (word : String) (day month year : Nat) : Prop where
  days : 1 ≤ day ∧ day ≤ 31
  months : 1 ≤ month ∧ month ≤ 12
  years : year ≤ 9999
  characters : word.toList = dateCharacters day month year

namespace SpellsDay

variable {word : String} {day month year : Nat}

theorem hasDateShape (spells : SpellsDay word day month year) : HasDateShape word.toList :=
  ⟨day, month, year, spells.days, spells.months, spells.years, spells.characters⟩

theorem spelledBy_iff (spells : SpellsDay word day month year) {date : Date} :
    Date.SpelledBy word.toList date ↔ date.IsDayOf year month day := by
  have read := Date.ofLiteral?_dateCharacters spells.days.2 spells.months.2 spells.years
  rw [← spells.characters, String.ofList_toList] at read
  rw [← Date.ofLiteral?_eq_some_iff, read, Date.ofCalendar?_eq_some_iff]

end SpellsDay

namespace Script

open Progress

/-- A text with a word between `DATE:` and a semicolon. -/
def datedSource (before word after : String) : String :=
  before ++ "DATE:" ++ word ++ ";" ++ after

/-- Where the word for the date begins. -/
def datePosition (before : String) : Position :=
  Position.origin.advance (before ++ "DATE:").toList

theorem sentence_append {first : List Token}
    (unfinished : ∀ token ∈ first, token.kind ≠ .endOfInput) (rest : List Token) :
    sentence (first ++ rest) = first ++ sentence rest :=
  List.takeWhile_append_of_pos fun token membership => by simp [unfinished token membership]

theorem exists_tokens_around (before after : String) :
    ∃ first : List Token, (∀ token ∈ first, token.kind ≠ .endOfInput) ∧
      semicolons first = before.toList.count ';' ∧
      ∀ word : String, IsWord word.toList →
        TokenSource.toList (Scanner.ofString (datedSource before word after)) =
          first ++ Token.ofWord word.toList (datePosition before) ::
            TokenSource.toList (Scanner.mk (';' :: after.toList)
              ((datePosition before).advance word.toList)) := by
  obtain ⟨first, unfinished, counts, scanned⟩ :=
    Scanner.exists_tokens_before_mark (before ++ "DATE").toList .colon .origin
  have opening : (before ++ "DATE").toList ++ [':'] = (before ++ "DATE:").toList := by simp
  refine ⟨first, unfinished, ?_, fun word isWord => ?_⟩
  · have count : semicolons first = ((before ++ "DATE").toList ++ [':']).count ';' :=
      counts .semicolon
    rw [count, opening, String.toList_append, List.count_append]
    rfl
  have ends : ∀ character ∈ (';' :: after.toList).head?, isWordCharacter character = false :=
    @Scanner.ends_before_mark [] (by simp) .semicolon after.toList
  have source : (datedSource before word after).toList =
      (before ++ "DATE").toList ++ ':' :: (word.toList ++ ';' :: after.toList) := by
    simp [datedSource]
  have tokens := scanned (word.toList ++ ';' :: after.toList)
  rw [Scanner.toList_word isWord ends] at tokens
  rw [Scanner.ofString, source, datePosition, ← opening]
  exact tokens

/-- All words of the shape of dates have the same tokens around them. -/
theorem exists_sentence_around (before after : String) :
    ∃ first rest : List Token, semicolons first = before.toList.count ';' ∧
      (∀ word : String, HasDateShape word.toList →
        sentence (TokenSource.toList (Scanner.ofString (datedSource before word after))) =
          first ++ ⟨.dateLiteral, some word, datePosition before⟩ :: rest) ∧
      ∀ word : String, IsWord word.toList →
        ∃ later, TokenSource.toList (Scanner.ofString (datedSource before word after)) =
          first ++ Token.ofWord word.toList (datePosition before) :: later := by
  obtain ⟨first, unfinished, count, scanned⟩ := exists_tokens_around before after
  let behind := (datePosition before).advance (dateCharacters 1 1 1)
  refine ⟨first, sentence (TokenSource.toList (Scanner.mk (';' :: after.toList) behind)), count,
    fun word shape => ?_, fun word isWord => ⟨_, scanned word isWord⟩⟩
  have samePosition : (datePosition before).advance word.toList = behind := by
    apply Position.advance_eq_of_length_eq
    · exact shape.length_eq
    · exact shape.isWord.noBreak
    · exact (isWord_dateCharacters 1 1 1).noBreak
  rw [scanned word shape.isWord, Token.ofWord_of_hasDateShape shape, samePosition,
    sentence_append unfinished, sentence_of_token (by simp)]

/-- Whether two texts make a script with some date between them. -/
def TakesDate (limit : Nat) (before after : String) : Prop :=
  ∃ word script, HasDateShape word.toList ∧
    ofSource (datedSource before word after) limit = .ok script

/-- How a word between two texts is read if these make a script with a date there: as the date
that it spells, or else not at all. -/
structure ReadsWord (limit : Nat) (before word after : String) (dated : Date → Script) : Prop where
  ok_iff : ∀ day month year, SpellsDay word day month year → ∀ date,
    ofSource (datedSource before word after) limit = .ok (dated date) ↔
      date.IsDayOf year month day
  invalidDate : ∀ day month year, SpellsDay word day month year →
    (∀ date : Date, ¬date.IsDayOf year month day) →
      ofSource (datedSource before word after) limit =
        .error (.faulty (datePosition before) (.invalidDate word))
  identifier : ¬HasDateShape word.toList → (∀ keyword : Keyword, keyword.spelling ≠ word) →
    ofSource (datedSource before word after) limit =
      .error (.unexpected ⟨.identifier, some word, datePosition before⟩ [.dateLiteral])
  keyword : ∀ keyword : Keyword, keyword.spelling = word →
    ofSource (datedSource before word after) limit =
      .error (.unexpected ⟨.keyword keyword, none, datePosition before⟩ [.dateLiteral])

theorem Scoped.fill {limit : Nat} {script : Script} {place : DatePlace} {first : Date}
    (wellScoped : script.Scoped limit) (filled : script.root = place.fill first) (second : Date) :
    Scoped limit ⟨script.name, script.parameters, place.fill second⟩ where
  distinctNames := wellScoped.distinctNames
  references := DatePlace.refersOnlyTo_fill (filled ▸ wellScoped.references) second
  depth := DatePlace.depth_fill_le (filled ▸ wellScoped.depth) second

theorem awaitsDate_of_leads {limit : Nat} {before after : List Token} {literal : Token}
    {next : Progress} (leads : Leads limit .start (before ++ literal :: after) next)
    (kind : literal.kind = .dateLiteral) : AwaitsDate limit before := by
  obtain ⟨middle, reaches, continues⟩ := leads.split
  cases continues with
  | cons transition _ =>
      cases transition with
      | date => exact ⟨_, _, reaches⟩
      | _ => simp [*] at kind

/-- Dates in the same place of a text give the same script but for the date. -/
theorem exists_place_of_takesDate {limit : Nat} {before after : String}
    (takes : TakesDate limit before after) :
    ∃ name parameters place, (DatePlace.testsBefore place).length = before.toList.count ';' ∧
      ∀ (word : String) (date : Date), HasDateShape word.toList →
        Date.SpelledBy word.toList date →
        ofSource (datedSource before word after) limit =
          .ok ⟨name, parameters, DatePlace.fill place date⟩ := by
  obtain ⟨sample, script, sampleShape, read⟩ := takes
  obtain ⟨first, rest, count, sentences, -⟩ := exists_sentence_around before after
  obtain ⟨derives, wellScoped⟩ := parse_source_eq_ok_iff.mp read
  obtain ⟨place, day, filled, countBefore, derivesAround⟩ :=
    derives.exists_place rfl (sentences sample sampleShape)
  refine ⟨script.name, script.parameters, place, countBefore.symm.trans count,
    fun word date shape spelled => ?_⟩
  apply parse_source_eq_ok_iff.mpr
  rw [sentences word shape]
  exact ⟨derivesAround _ date (Token.spellsDate_literal_iff.mpr spelled),
    wellScoped.fill filled date⟩

theorem exists_date_of_ofSource {limit : Nat} {before word after : String} {script : Script}
    (shape : HasDateShape word.toList)
    (read : ofSource (datedSource before word after) limit = .ok script) :
    ∃ date, Date.SpelledBy word.toList date := by
  obtain ⟨first, rest, -, sentences, -⟩ := exists_sentence_around before after
  have leads := run_eq_ok_iff.mp read
  rw [sentences word shape] at leads
  obtain ⟨date, spells⟩ :=
    leads.spellsDate _ (List.mem_append_right first List.mem_cons_self) rfl
  exact ⟨date, Token.spellsDate_literal_iff.mp spells⟩

/-- Reading stops at the word in the place of a date if it is refused there. -/
theorem exists_stop_of_takesDate {limit : Nat} {before after : String}
    (takes : TakesDate limit before after) :
    ∃ clause test, ∀ (word : String) (rejection : Rejection), IsWord word.toList →
      Refuses limit (.date clause test) (Token.ofWord word.toList (datePosition before))
        rejection →
      ofSource (datedSource before word after) limit = .error rejection := by
  obtain ⟨sample, script, sampleShape, read⟩ := takes
  obtain ⟨first, rest, -, sentences, tokens⟩ := exists_sentence_around before after
  have sampleLeads := run_eq_ok_iff.mp read
  rw [sentences sample sampleShape] at sampleLeads
  obtain ⟨clause, test, leads⟩ := awaitsDate_of_leads sampleLeads rfl
  refine ⟨clause, test, fun word rejection isWord refuses => ?_⟩
  obtain ⟨later, split⟩ := tokens word isWord
  exact (run_eq_error_and_consumed_iff.mpr ⟨_, _, later, split, leads, refuses⟩).1

/-- Words in the place of a date that have the shape of dates stand for the days of the calendar
that they spell, and reading stops at any other word.  The date is that of the test behind as many
others as there are semicolons before the word. -/
theorem words_for_dates {limit : Nat} {before after : String}
    (takes : TakesDate limit before after) :
    (∃ name parameters place kind,
      (∀ date, (DatePlace.fill place date).tests[before.toList.count ';']? =
        some (kind, .date date)) ∧
      ∀ word : String, IsWord word.toList →
        ReadsWord limit before word after fun date =>
          ⟨name, parameters, DatePlace.fill place date⟩) ∧
    ((before ++ "DATE:").toList.length < 4294967296 →
      (datePosition before).IsAfter (before ++ "DATE:").toList) := by
  refine ⟨?_, Position.isAfter_advance⟩
  obtain ⟨name, parameters, place, count, reads⟩ := exists_place_of_takesDate takes
  obtain ⟨kind, found⟩ := place.getElem?_tests_fill
  obtain ⟨clause, test, stops⟩ := exists_stop_of_takesDate takes
  refine ⟨name, parameters, place, kind, count ▸ found,
    fun word isWord => ⟨?_, ?_, ?_, ?_⟩⟩
  · intro day month year spells date
    rw [← spells.spelledBy_iff]
    constructor
    · intro read
      obtain ⟨other, spelled⟩ := exists_date_of_ofSource spells.hasDateShape read
      have same := (reads word other spells.hasDateShape spelled).symm.trans read
      have roots := congrArg Script.root (Except.ok.inj same)
      rwa [place.fill_injective roots] at spelled
    · exact reads word date spells.hasDateShape
  · intro day month year spells noDay
    apply stops word _ isWord
    rw [Token.ofWord_of_hasDateShape spells.hasDateShape]
    apply (refuses_invalidDate_iff rfl rfl).mpr
    exact fun date spelled => noDay date (spells.spelledBy_iff.mp spelled)
  · intro noDate unreserved
    have token : Token.ofWord word.toList (datePosition before) = _ :=
      Lexeme.token_name ⟨isWord, unreserved, noDate⟩ _
    apply stops word _ isWord
    rw [token]
    exact refuses_date (by simp)
  · rintro keyword rfl
    have token : Token.ofWord keyword.spelling.toList (datePosition before) = _ :=
      Lexeme.token_keyword keyword _
    apply stops _ _ isWord
    rw [token]
    exact refuses_date (by simp)

/-- The text of a script before its only date. -/
def textBeforeDate : String :=
  "NAME g PARAMETERS END ROUTINE\nBORN AFTER "

theorem takesDate_textBeforeDate : TakesDate 1 textBeforeDate " END" := by
  have accepted : (ofSource (datedSource textBeforeDate "01/01/2019" " END") 1).toBool = true := by
    decide +kernel
  have shape : HasDateShape "01/01/2019".toList := isDateShape_iff.mp (by decide +kernel)
  cases read : ofSource (datedSource textBeforeDate "01/01/2019" " END") 1 with
  | ok script => exact ⟨"01/01/2019", script, shape, read⟩
  | error rejection =>
      rw [read] at accepted
      contradiction

/-- The last day of February is read in a leap year only, and not in another notation. -/
theorem words_for_dates_textBeforeDate :
    TakesDate 1 textBeforeDate " END" ∧
    (∃ script kind date, Date.IsDayOf 2020 2 29 date ∧
      ofSource (datedSource textBeforeDate "29/02/2020" " END") 1 = .ok script ∧
      script.root.tests[0]? = some (kind, .date date)) ∧
    ofSource (datedSource textBeforeDate "29/02/2019" " END") 1 =
      .error (.faulty ⟨1, 16⟩ (.invalidDate "29/02/2019")) ∧
    ofSource (datedSource textBeforeDate "2019-02-28" " END") 1 =
      .error (.unexpected ⟨.identifier, some "2019-02-28", ⟨1, 16⟩⟩ [.dateLiteral]) ∧
    ofSource (datedSource textBeforeDate "END" " END") 1 =
      .error (.unexpected ⟨.keyword .finish, none, ⟨1, 16⟩⟩ [.dateLiteral]) := by
  obtain ⟨⟨name, parameters, place, kind, found, reads⟩, -⟩ :=
    words_for_dates takesDate_textBeforeDate
  have position : datePosition textBeforeDate = ⟨1, 16⟩ := by decide +kernel
  have leapDay : SpellsDay "29/02/2020" 29 2 2020 :=
    ⟨by decide, by decide, by decide, by decide +kernel⟩
  have isDay : Date.IsDayOf 2020 2 29 ⟨2020, 60, by decide, by decide⟩ :=
    Date.ofCalendar?_eq_some_iff.mp (by decide +kernel)
  have noLeapDay : SpellsDay "29/02/2019" 29 2 2019 :=
    ⟨by decide, by decide, by decide, by decide +kernel⟩
  have noDay : ∀ date : Date, ¬date.IsDayOf 2019 2 29 :=
    fun date isDay => absurd isDay.inMonth.2 (by decide)
  have isWord : IsWord "2019-02-28".toList :=
    isWord_iff.mpr ⟨by decide, List.all_eq_true.mp (by decide)⟩
  have noDate : ¬HasDateShape "2019-02-28".toList := by
    rw [← isDateShape_iff]
    decide +kernel
  rw [← position]
  refine ⟨takesDate_textBeforeDate, ⟨⟨name, parameters, place.fill _⟩, kind, _, isDay, ?_, found _⟩,
    ?_, ?_, ?_⟩
  · exact ((reads _ leapDay.hasDateShape.isWord).ok_iff 29 2 2020 leapDay _).mpr isDay
  · exact (reads _ noLeapDay.hasDateShape.isWord).invalidDate 29 2 2019 noLeapDay noDay
  · exact (reads _ isWord).identifier noDate fun keyword => by cases keyword <;> decide
  · exact (reads _ (Keyword.isWord_spelling .finish)).keyword .finish rfl

end Script

end Cohort
