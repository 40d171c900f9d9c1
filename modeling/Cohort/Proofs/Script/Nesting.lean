import Cohort.Proofs.Script.Recognition
import Cohort.Proofs.Script.Stopping

/-!
# The limit on nesting

Reading with a lower limit gives the same result as with a higher one, unless it stops because
conditions nest too deep.  A script that is read with the higher limit is cut off exactly where
its tokens first start a condition below the levels that the lower limit allows.
-/

namespace Cohort

def Token.isOpening (token : Token) : Bool :=
  token.kind = .mark .leftBrace

def Token.isClosing (token : Token) : Bool :=
  token.kind = .mark .rightBrace

/-- Whether a token behind others starts a condition at a level: it stands in the routine, and one
block less than the level is open. -/
structure StartsAt (level : Nat) (before : List Token) (token : Token) : Prop where
  isStart : token.IsStart
  inRoutine : ∃ heading ∈ before, heading.kind = .keyword .routine
  openBlocks : before.countP Token.isOpening + 1 = before.countP Token.isClosing + level

/-- Whether a token is the first among others that starts a condition at a level; `before` are
the tokens before it. -/
structure StartsFirst (level : Nat) (tokens before : List Token) (token : Token) : Prop where
  position : ∃ rest, tokens = before ++ token :: rest
  starts : StartsAt level before token
  first : ∀ earlier other between, before = earlier ++ other :: between →
    ¬StartsAt level earlier other

theorem Routine.Attaches.length_openBlocks {condition : Condition Date} {routine next : Routine}
    (attaches : Attaches condition routine next) :
    next.openBlocks.length = routine.openBlocks.length := by
  cases attaches <;> rfl

theorem Routine.Admits.of_le {smaller larger : Nat} (le : smaller ≤ larger) {routine : Routine}
    (admits : routine.Admits smaller) : routine.Admits larger :=
  ⟨Nat.lt_of_lt_of_le admits.depth le, admits.unfinished⟩

namespace Progress

variable {smaller larger : Nat}

theorem Transition.of_le (le : smaller ≤ larger) {token : Token} {progress next : Progress}
    (transition : Transition smaller token progress next) :
    Transition larger token progress next := by
  cases transition with
  | announceBlock kind admits => exact .announceBlock kind (admits.of_le le)
  | announceBorn kind admits => exact .announceBorn kind (admits.of_le le)
  | announceSpecies kind admits => exact .announceSpecies kind (admits.of_le le)
  | _ => constructor <;> assumption

/-- The limit decides nothing but whether a condition may start. -/
theorem step_of_le (le : smaller ≤ larger) (progress : Progress) (token : Token) :
    progress.step larger token = progress.step smaller token ∨
      (∃ header routine, progress = .conditions header routine ∧
        smaller ≤ routine.openBlocks.length) ∧ token.IsStart ∧
      progress.step smaller token = .error (.faulty token.position (.nestingTooDeep smaller)) := by
  cases stepped : progress.step smaller token with
  | ok next => exact .inl (step_of_transition ((transition_of_step stepped).of_le le))
  | error rejection =>
      cases step_eq_error_iff.mp stepped with
      | nestingTooDeep start deep => exact .inr ⟨⟨_, _, rfl, deep⟩, start, rfl⟩
      | startBehindRoot start positive =>
          exact .inl (step_of_fails (.startBehindRoot start (Nat.lt_of_lt_of_le positive le)))
      | _ =>
          apply Or.inl
          apply step_of_fails
          constructor <;> assumption

variable {σ : Type} [TokenSource σ]

theorem run_of_le (le : smaller ≤ larger) {progress : Progress} {source : σ}
    (shallow : ∀ position limit,
      progress.run smaller source ≠ .error (.faulty position (.nestingTooDeep limit))) :
    progress.run larger source = progress.run smaller source := by
  induction source using TokenSource.induction generalizing progress with
  | ended source ended => rw [run_of_ended ended, run_of_ended ended]
  | token source unfinished inductionHypothesis =>
      rw [run_of_token unfinished] at shallow
      rw [run_of_token unfinished, run_of_token unfinished]
      rcases step_of_le le progress (TokenSource.next source).1 with same | ⟨-, -, stopped⟩
      · rw [same]
        cases stepped : progress.step smaller (TokenSource.next source).1 with
        | error rejection => rfl
        | ok next =>
            rw [stepped] at shallow
            exact inductionHypothesis shallow
      · rw [stopped] at shallow
        exact absurd rfl (shallow _ _)

/-- Reading stops with the rejection of a token if the tokens before it can be taken. -/
theorem run_eq_error_of_leads {limit : Nat} {progress stop : Progress} {source : σ}
    {before rest : List Token} {token : Token} {rejection : Rejection}
    (split : sentence (TokenSource.toList source) = before ++ token :: rest)
    (leads : Leads limit progress before stop)
    (rejected : stop.step limit token = .error rejection) :
    progress.run limit source = .error rejection := by
  have member : token ∈ sentence (TokenSource.toList source) := by simp [split]
  have unfinished : token.kind ≠ .endOfInput := by
    simpa using List.all_eq_true.mp List.all_takeWhile token member
  have handedOut : TokenSource.toList source = before ++ token :: (rest ++
      (TokenSource.toList source).dropWhile fun token => token.kind ≠ .endOfInput) := by
    rw [← List.cons_append, ← List.append_assoc, ← split]
    exact (List.takeWhile_append_dropWhile).symm
  exact (run_eq_error_and_consumed_iff.mpr
    ⟨stop, token, _, handedOut, leads, .stepped unfinished rejected⟩).1

theorem Leads.split {limit : Nat} {progress after : Progress} {first second : List Token}
    (leads : Leads limit progress (first ++ second) after) :
    ∃ middle, Leads limit progress first middle ∧ Leads limit middle second after := by
  induction first generalizing progress with
  | nil => exact ⟨progress, .nil, leads⟩
  | cons token first inductionHypothesis =>
      cases leads with
      | cons transition continues =>
          obtain ⟨middle, leadsFirst, leadsSecond⟩ := inductionHypothesis continues
          exact ⟨middle, .cons transition leadsFirst, leadsSecond⟩

theorem Leads.append {limit : Nat} {progress middle after : Progress} {first second : List Token}
    (leads : Leads limit progress first middle) (continues : Leads limit middle second after) :
    Leads limit progress (first ++ second) after := by
  induction leads with
  | nil => exact continues
  | cons transition _ inductionHypothesis => exact .cons transition (inductionHypothesis continues)

/-- Tokens that can be taken with the higher limit can be taken with the lower one, up to the
first of them that starts a condition too deep. -/
theorem leads_or_stops_of_le (le : smaller ≤ larger) {progress after : Progress}
    {tokens : List Token} (leads : Leads larger progress tokens after) :
    Leads smaller progress tokens after ∨
      ∃ before token rest header routine, tokens = before ++ token :: rest ∧
        Leads smaller progress before (.conditions header routine) ∧
        smaller ≤ routine.openBlocks.length ∧ token.IsStart ∧
        (Progress.conditions header routine).step smaller token =
          .error (.faulty token.position (.nestingTooDeep smaller)) := by
  induction leads with
  | nil => exact .inl .nil
  | @cons progress middle after token tokens transition _ inductionHypothesis =>
      rcases step_of_le le progress token with same | ⟨⟨header, routine, rfl, deep⟩, start, stopped⟩
      · rw [step_of_transition transition] at same
        have first := transition_of_step same.symm
        rcases inductionHypothesis with continues |
          ⟨before, stop, rest, header, routine, rfl, reaches, deep, start, stopped⟩
        · exact .inl (.cons first continues)
        · exact .inr ⟨token :: before, stop, rest, header, routine, rfl, .cons first reaches, deep,
            start, stopped⟩
      · exact .inr ⟨[], token, tokens, header, routine, rfl, .nil, deep, start, stopped⟩

/-!
## Open blocks
-/

/-- The number of open blocks. -/
def openCount : Progress → Nat
  | conditions _ routine | block _ routine => routine.openBlocks.length
  | bornTest clause | speciesTest clause | value clause _ | dateColon clause _ | date clause _
  | referenceColon clause _ | reference clause _ | clauseEnd clause _ =>
      clause.routine.openBlocks.length
  | start | scriptName | parameterList _ | declarations _ _ | parameterName _ _
  | routineHeading _ | complete _ => 0

/-- Whether the routine has begun. -/
def begun : Progress → Bool
  | start | scriptName | parameterList _ | declarations _ _ | parameterName _ _
  | routineHeading _ => false
  | _ => true

/-- Whether the open blocks are within a limit, also when one more has been announced. -/
def Within (limit : Nat) : Progress → Prop
  | block _ routine => routine.openBlocks.length < limit
  | progress => progress.openCount ≤ limit

variable {limit : Nat} {token : Token} {progress next : Progress}

theorem Transition.openCount (transition : Transition limit token progress next) :
    next.openCount + [token].countP Token.isClosing =
      progress.openCount + [token].countP Token.isOpening := by
  cases transition with
  | closeBlock kind attaches =>
      simp [Progress.openCount, Token.isOpening, Token.isClosing, kind, attaches.length_openBlocks]
  | clauseEnd kind attaches =>
      simp [Progress.openCount, Token.isOpening, Token.isClosing, kind, attaches.length_openBlocks]
  | _ =>
      simp [Progress.openCount, Token.isOpening, Token.isClosing, Routine.empty,
        Routine.openBlock, *]

theorem Transition.begun (transition : Transition limit token progress next) :
    next.begun = (progress.begun || token.kind = .keyword .routine) := by
  cases transition <;> simp [Progress.begun, *]

theorem Transition.within (transition : Transition limit token progress next)
    (within : progress.Within limit) : next.Within limit := by
  cases transition with
  | announceBlock kind admits => exact admits.depth
  | announceBorn kind admits | announceSpecies kind admits => exact Nat.le_of_lt admits.depth
  | openBlock kind => exact within
  | closeBlock kind attaches =>
      exact Nat.le_trans (Nat.le_of_eq attaches.length_openBlocks) (Nat.le_of_succ_le within)
  | clauseEnd kind attaches => exact Nat.le_trans (Nat.le_of_eq attaches.length_openBlocks) within
  | routineHeading kind | routineEnd kind => exact Nat.zero_le limit
  | _ => exact within

theorem Leads.openCount {tokens : List Token} (leads : Leads limit progress tokens next) :
    next.openCount + tokens.countP Token.isClosing =
      progress.openCount + tokens.countP Token.isOpening := by
  induction leads with
  | nil => rfl
  | @cons progress middle after token tokens transition _ inductionHypothesis =>
      have step := transition.openCount
      rw [List.countP_singleton, List.countP_singleton] at step
      rw [List.countP_cons, List.countP_cons]
      omega

theorem Leads.begun {tokens : List Token} (leads : Leads limit progress tokens next) :
    next.begun = true ↔
      progress.begun = true ∨ ∃ heading ∈ tokens, heading.kind = .keyword .routine := by
  induction leads with
  | nil => simp
  | cons transition _ inductionHypothesis =>
      rw [inductionHypothesis, transition.begun]
      simp [or_assoc]

theorem Leads.within {tokens : List Token} (leads : Leads limit progress tokens next)
    (within : progress.Within limit) : next.Within limit := by
  induction leads with
  | nil => exact within
  | cons transition _ inductionHypothesis => exact inductionHypothesis (transition.within within)

/-- Where a condition can be started once the routine has begun, there is room below the limit. -/
theorem Transition.openCount_lt (transition : Transition limit token progress next)
    (begun : progress.begun = true) (start : token.IsStart) : progress.openCount < limit := by
  cases transition with
  | announceBlock kind admits | announceBorn kind admits | announceSpecies kind admits =>
      exact admits.depth
  | name | scriptName | parameterList | declaration | declarationsEnd | parameterName
  | routineHeading => contradiction
  | _ =>
      simp [Token.IsStart, *] at start

/-- Tokens that are taken within a limit start no condition at a deeper level. -/
theorem Leads.not_startsAt {before : List Token} {other : Token} {between : List Token}
    (leads : Leads limit .start (before ++ other :: between) next) :
    ¬StartsAt (limit + 1) before other := by
  rintro ⟨start, heading, count⟩
  obtain ⟨middle, reaches, continues⟩ := leads.split
  cases continues with
  | cons transition _ =>
      have room := transition.openCount_lt (reaches.begun.mpr (.inr heading)) start
      have opened := reaches.openCount
      change _ = 0 + _ at opened
      omega

theorem startsFirst_of_leads {before rest : List Token} {header : Header} {routine : Routine}
    (leads : Leads limit .start before (.conditions header routine))
    (deep : limit ≤ routine.openBlocks.length) (start : token.IsStart) :
    StartsFirst (limit + 1) (before ++ token :: rest) before token := by
  have opened := leads.openCount
  have within : routine.openBlocks.length ≤ limit := leads.within (Nat.zero_le limit)
  change routine.openBlocks.length + _ = 0 + _ at opened
  have heading := leads.begun.mp rfl
  refine ⟨⟨rest, rfl⟩, ⟨start, heading.resolve_left Bool.false_ne_true, by omega⟩, ?_⟩
  rintro earlier other between rfl
  exact leads.not_startsAt

end Progress

namespace Script

/-- A lower limit on nesting gives the same result as a higher one unless it is exceeded, and it
is exceeded by the scripts that are nested deeper, where they first are. -/
theorem parse_of_le {smaller larger : Nat} (le : smaller ≤ larger) (tokens : List Token) :
    ((∀ position limit, parse (TokenQueue.ofList tokens) smaller ≠
        .error (.faulty position (.nestingTooDeep limit))) →
      parse (TokenQueue.ofList tokens) larger = parse (TokenQueue.ofList tokens) smaller) ∧
    ∀ script, parse (TokenQueue.ofList tokens) larger = .ok script →
      (script.root.depth ≤ smaller → parse (TokenQueue.ofList tokens) smaller = .ok script) ∧
      (smaller < script.root.depth →
        ∃ before token, StartsFirst (smaller + 1) (sentence tokens) before token ∧
          parse (TokenQueue.ofList tokens) smaller =
            .error (.faulty token.position (.nestingTooDeep smaller))) := by
  refine ⟨Progress.run_of_le le, ?_⟩
  intro script read
  obtain ⟨derives, wellScoped⟩ := parse_source_eq_ok_iff.mp read
  constructor
  · intro shallow
    apply parse_source_eq_ok_iff.mpr
    exact ⟨derives, wellScoped.distinctNames, wellScoped.references, shallow⟩
  · intro deep
    have leads := Progress.run_eq_ok_iff.mp read
    change Progress.Leads larger .start _ _ at leads
    rcases Progress.leads_or_stops_of_le le leads with leadsToo |
      ⟨before, token, rest, header, routine, split, reaches, exceeded, start, stopped⟩
    · exact absurd (Progress.leads_start_iff.mp leadsToo).2.depth (Nat.not_le_of_lt deep)
    · refine ⟨before, token, ?_, Progress.run_eq_error_of_leads split reaches stopped⟩
      rw [TokenQueue.sentence_toList] at split
      change sentence tokens = _ at split
      rw [split]
      exact Progress.startsFirst_of_leads reaches exceeded start

def blockTokens : List Token :=
  tokenize "NAME n PARAMETERS END ROUTINE AND \x7b BORN AFTER DATE:29/02/2020; \x7d END"

theorem parse_blockTokens :
    ∃ script, parse (TokenQueue.ofList blockTokens) 2 = .ok script ∧
      parse (TokenQueue.ofList blockTokens) 3 = parse (TokenQueue.ofList blockTokens) 2 ∧
      1 < script.root.depth ∧
      ∃ before token, StartsFirst 2 (sentence blockTokens) before token ∧
        parse (TokenQueue.ofList blockTokens) 1 =
          .error (.faulty token.position (.nestingTooDeep 1)) := by
  have depth : (parse (TokenQueue.ofList blockTokens) 2).toOption.map (·.root.depth) = some 2 := by
    decide +kernel
  cases read : parse (TokenQueue.ofList blockTokens) 2 with
  | error rejection =>
      rw [read] at depth
      contradiction
  | ok script =>
      rw [read] at depth
      have levels : script.root.depth = 2 := Option.some.inj depth
      have deeper : 1 < script.root.depth := by omega
      have kept := (parse_of_le (Nat.le_succ 2) blockTokens).1 (by simp [read])
      have stopped := ((parse_of_le (Nat.le_succ 1) blockTokens).2 script read).2 deeper
      exact ⟨script, rfl, kept.trans read, deeper, stopped⟩

end Script

end Cohort
