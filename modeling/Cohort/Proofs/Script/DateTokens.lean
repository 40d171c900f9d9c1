import Cohort.Proofs.Calendar.DayOfMonth
import Cohort.Proofs.Script.Expectation
import Cohort.Proofs.Script.Expressibility

/-!
# Date literals in tokens

A date literal is taken if its text stands for a day of the calendar.  Texts are cut into tokens in
such a way that every date literal has the shape `DD/MM/YYYY`; reading does not ask for this shape
again, so tokens from elsewhere may spell their dates more freely.
-/

namespace Cohort

namespace Token

/-- Whether a token is a date literal whose text stands for a day of the calendar. -/
def SpellsDate (token : Token) (date : Date) : Prop :=
  token.kind = .dateLiteral ∧ ∃ text, token.text = some text ∧ Date.SpelledBy text.toList date

theorem IsScanned.hasDateShape {token : Token} (scanned : token.IsScanned)
    (literal : token.kind = .dateLiteral) :
    ∃ text, token.text = some text ∧ HasDateShape text.toList := by
  obtain ⟨lexeme, -, position, rfl⟩ := scanned
  obtain ⟨kind, text, made, denotes⟩ := lexeme.denotes_token position
  rw [made] at literal
  cases denotes with
  | mark symbol => contradiction
  | keyword keyword => contradiction
  | identifier unreserved noDate => contradiction
  | @dateLiteral characters shape =>
      rw [made]
      exact ⟨String.ofList characters, rfl, by rwa [String.toList_ofList]⟩

end Token

namespace Progress

variable {limit : Nat} {progress next : Progress} {token : Token}

theorem Transition.spellsDate (transition : Transition limit token progress next)
    (literal : token.kind = .dateLiteral) : ∃ date, token.SpellsDate date := by
  cases transition with
  | @date clause test text day kind carried found =>
      exact ⟨day, kind, text, carried, Date.ofLiteral?_eq_some_iff.mp found⟩
  | _ => simp [*] at literal

/-- All date literals that are taken stand for days of the calendar. -/
theorem Leads.spellsDate {tokens : List Token} (leads : Leads limit progress tokens next) :
    ∀ token ∈ tokens, token.kind = .dateLiteral → ∃ date, token.SpellsDate date := by
  induction leads with
  | nil => exact List.forall_mem_nil _
  | cons transition _ inductionHypothesis =>
      exact List.forall_mem_cons.mpr ⟨transition.spellsDate, inductionHypothesis⟩

variable {clause : Clause} {test : Test} {text : String}

/-- Where a date comes next, a date literal is refused for its date if its text stands for none. -/
theorem refuses_invalidDate_iff (literal : token.kind = .dateLiteral)
    (carried : token.text = some text) :
    Refuses limit (.date clause test) token (.faulty token.position (.invalidDate text)) ↔
      ∀ date, ¬Date.SpelledBy text.toList date := by
  constructor
  · intro refuses date spelled
    have read := Date.ofLiteral?_eq_some_iff.mpr spelled
    have stepped := step_of_transition (.date literal carried read : Transition limit token
      (.date clause test) (.clauseEnd clause (.test test (.date date))))
    cases refuses with
    | ended ended => simp [literal] at ended
    | stepped _ rejected =>
        rw [rejected] at stepped
        contradiction
  · intro unspelled
    have unread : Date.ofLiteral? text = none := by
      apply Option.eq_none_iff_forall_ne_some.mpr
      exact fun date read => unspelled date (Date.ofLiteral?_eq_some_iff.mp read)
    apply Refuses.stepped
    · simp [literal]
    · exact step_of_fails (.invalidDate literal carried unread)

/-- Where a date comes next, nothing but a date literal is expected. -/
theorem refuses_date (otherKind : token.kind ≠ .dateLiteral) :
    Refuses limit (.date clause test) token (.unexpected token [.dateLiteral]) := by
  have unknown : token.kind ∉ expected (.date clause test) := by simpa [expected] using otherKind
  exact refuses_unexpected_iff.mpr ⟨rfl, rfl, unknown, by simp [AtTop]⟩

end Progress

namespace Script

open Progress

/-- Whether some tokens can be taken, and a date comes next. -/
def AwaitsDate (limit : Nat) (before : List Token) : Prop :=
  ∃ clause test, Leads limit .start before (.date clause test)

/-- Every date literal of a script that is read stands for a day of the calendar, and has the shape
of dates if the tokens are those of a text.  Where a date comes next, reading stops at the date
literals that stand for no day, and at no others. -/
theorem dates_of_tokens (limit : Nat) :
    (∀ tokens script, parse (TokenQueue.ofList tokens) limit = .ok script →
      ∀ token ∈ sentence tokens, token.kind = .dateLiteral → ∃ date, token.SpellsDate date) ∧
    (∀ source, ∀ token ∈ sentence (tokenize source), token.kind = .dateLiteral →
      ∃ text, token.text = some text ∧ HasDateShape text.toList) ∧
    ∀ before token rest text, AwaitsDate limit before → token.kind = .dateLiteral →
      token.text = some text →
      (StopsAt limit (before ++ token :: rest) before
          (.faulty token.position (.invalidDate text)) ↔
        ∀ date, ¬Date.SpelledBy text.toList date) := by
  refine ⟨?_, ?_, ?_⟩
  · intro tokens script read
    have leads := run_eq_ok_iff.mp read
    rw [TokenQueue.sentence_toList] at leads
    exact leads.spellsDate
  · intro source token membership literal
    exact (isScanned_of_mem_sentence source token membership).hasDateShape literal
  · rintro before token rest text ⟨clause, test, leads⟩ literal carried
    rw [stopsAt_append_iff leads]
    exact refuses_invalidDate_iff literal carried

/-- The tokens of a script up to its only date. -/
def tokensBeforeDate : List Token :=
  [⟨.keyword .name, none, ⟨0, 0⟩⟩, ⟨.identifier, some "g", ⟨0, 5⟩⟩,
    ⟨.keyword .parameters, none, ⟨1, 0⟩⟩, ⟨.keyword .finish, none, ⟨2, 0⟩⟩,
    ⟨.keyword .routine, none, ⟨3, 0⟩⟩, ⟨.keyword .born, none, ⟨4, 0⟩⟩,
    ⟨.keyword .after, none, ⟨4, 5⟩⟩, ⟨.keyword .date, none, ⟨4, 11⟩⟩,
    ⟨.mark .colon, none, ⟨4, 15⟩⟩]

theorem awaitsDate_tokensBeforeDate : AwaitsDate 1 tokensBeforeDate := by
  have admits : Routine.empty.Admits 1 := ⟨by decide, fun _ => rfl⟩
  exact ⟨_, _, .cons (.name rfl) (.cons (.scriptName rfl rfl) (.cons (.parameterList rfl)
    (.cons (.declarationsEnd rfl) (.cons (.routineHeading rfl) (.cons (.announceBorn rfl admits)
      (.cons (.bornAfter rfl) (.cons (.announceDate rfl) (.cons (.dateColon rfl) .nil))))))))⟩

/-- The tokens of the script with a text for its date. -/
def tokensDated (text : String) : List Token :=
  tokensBeforeDate ++ ⟨.dateLiteral, some text, ⟨4, 16⟩⟩ ::
    [⟨.mark .semicolon, none, ⟨4, 27⟩⟩, ⟨.keyword .finish, none, ⟨5, 0⟩⟩]

/-- The fifth of June 2021. -/
def juneSample : Date :=
  ⟨2021, 156, by decide, by decide⟩

theorem parse_tokensDated {text : String} {date : Date} (read : Date.ofLiteral? text = some date) :
    parse (TokenQueue.ofList (tokensDated text)) 1 =
      .ok ⟨"g", [], .test .bornAfter (.date date)⟩ := by
  apply parse_source_eq_ok_iff.mpr
  rw [TokenQueue.sentence_toList]
  constructor
  · exact .intro rfl rfl rfl rfl .nil rfl
      (.intro rfl (.test (.bornAfter rfl rfl) (.date rfl rfl rfl rfl read) rfl) rfl)
  · refine ⟨.nil, ?_, Nat.le_refl 1⟩
    apply Condition.refersOnlyTo_test_iff.mpr
    exact nofun

/-- Signs and a fourth part are read in the text of a date literal, a thirteenth month is not. -/
theorem dates_of_tokensDated :
    parse (TokenQueue.ofList (tokensDated "+5/+6/+2021/x")) 1 =
      .ok ⟨"g", [], .test .bornAfter (.date juneSample)⟩ ∧
    (∃ date, Token.SpellsDate ⟨.dateLiteral, some "+5/+6/+2021/x", ⟨4, 16⟩⟩ date) ∧
    AwaitsDate 1 tokensBeforeDate ∧
    StopsAt 1 (tokensDated "1/13/2019") tokensBeforeDate
      (.faulty ⟨4, 16⟩ (.invalidDate "1/13/2019")) := by
  have read : parse (TokenQueue.ofList (tokensDated "+5/+6/+2021/x")) 1 =
      .ok ⟨"g", [], .test .bornAfter (.date juneSample)⟩ :=
    parse_tokensDated (by decide +kernel)
  have unread : Date.ofLiteral? "1/13/2019" = none := by decide +kernel
  obtain ⟨spelled, -, stops⟩ := dates_of_tokens 1
  refine ⟨read, spelled _ _ read _ (by decide) rfl, awaitsDate_tokensBeforeDate, ?_⟩
  refine (stops _ _ _ _ awaitsDate_tokensBeforeDate rfl rfl).mpr fun date spells => ?_
  rw [Date.ofLiteral?_eq_some_iff.mpr spells] at unread
  contradiction

/-- Signs are read in the text of a date literal although no text is cut into such a token. -/
theorem parse_signedDate :
    parse (TokenQueue.ofList (tokensDated "+5/+6/+2021")) 1 =
      .ok ⟨"g", [], .test .bornAfter (.date juneSample)⟩ ∧
    ⟨.dateLiteral, some "+5/+6/+2021", ⟨4, 16⟩⟩ ∈ sentence (tokensDated "+5/+6/+2021") ∧
    ¬HasDateShape "+5/+6/+2021".toList := by
  refine ⟨parse_tokensDated (by decide +kernel), by decide, ?_⟩
  rw [← isDateShape_iff]
  decide +kernel

end Script

end Cohort
