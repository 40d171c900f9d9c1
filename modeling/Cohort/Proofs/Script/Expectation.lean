import Cohort.Proofs.Script.Nesting

/-!
# What a rejection expects

Where reading stops at an unexpected token, the kinds that it names are those that could stand
there: they depend on the tokens before and on nothing else, and every token of another kind is
unexpected there as well.  One kind of token is neither named nor unexpected: a mark that closes
a block, between conditions, while no block is open.
-/

namespace Cohort

/-- Whether a token closes a block where a condition may start and no block is open. -/
structure ClosesNothing (before : List Token) (expected : List Token.Kind) (token : Token) :
    Prop where
  closing : token.kind = .mark .rightBrace
  betweenConditions : .keyword .and ∈ expected
  noneOpen : before.countP Token.isOpening = before.countP Token.isClosing

namespace Progress

variable {limit : Nat} {progress : Progress} {token : Token}

theorem endOfInput_mem_expected_iff :
    .endOfInput ∈ progress.expected ↔ ∃ script, progress = .complete script := by
  cases progress with
  | conditions header routine =>
      rcases routine with ⟨_ | ⟨block, outer⟩, root⟩
      · simp [expected]
      · simp [expected]
  | _ => simp [expected]

theorem finish_eq_unexpected_iff {found : Token} {kinds : List Token.Kind} :
    progress.finish token = .error (.unexpected found kinds) ↔
      found = token ∧ kinds = progress.expected ∧ .endOfInput ∉ progress.expected := by
  rw [endOfInput_mem_expected_iff]
  cases progress <;> simp [finish, eq_comm]

/-- A token is unexpected exactly if its kind is not expected, but for the one exception, and it
is reported with all that is expected in its place. -/
theorem refuses_unexpected_iff {found : Token} {kinds : List Token.Kind} :
    Refuses limit progress token (.unexpected found kinds) ↔
      found = token ∧ kinds = progress.expected ∧ token.kind ∉ progress.expected ∧
        ¬(token.kind = .mark .rightBrace ∧ progress.AtTop) := by
  rw [not_and]
  constructor
  · intro refuses
    cases refuses with
    | ended ended refused =>
        obtain ⟨rfl, rfl, unknown⟩ := finish_eq_unexpected_iff.mp refused
        rw [ended]
        exact ⟨rfl, rfl, unknown, nofun⟩
    | stepped unfinished refused =>
        cases step_eq_error_iff.mp refused with
        | unexpected unknown closesBlock => exact ⟨rfl, rfl, unknown unfinished, closesBlock⟩
  · rintro ⟨rfl, rfl, unknown, closesBlock⟩
    by_cases ended : found.kind = .endOfInput
    · rw [ended] at unknown
      exact .ended ended (finish_eq_unexpected_iff.mpr ⟨rfl, rfl, unknown⟩)
    · exact .stepped ended (step_of_notMem unknown closesBlock)

/-- Where no block is open is told from the tokens so far. -/
theorem Leads.closesNothing_iff {before : List Token} (leads : Leads limit .start before progress) :
    ClosesNothing before progress.expected token ↔
      token.kind = .mark .rightBrace ∧ progress.AtTop := by
  have opened := leads.openCount
  change _ = 0 + _ at opened
  constructor
  · rintro ⟨closing, between, noneOpen⟩
    refine ⟨closing, ?_⟩
    cases progress with
    | conditions header routine =>
        rcases routine with ⟨_ | ⟨block, outer⟩, root⟩
        · exact ⟨header, root, rfl⟩
        · simp only [Progress.openCount, List.length_cons] at opened
          omega
    | _ => simp [expected] at between
  · rintro ⟨closing, header, root, rfl⟩
    refine ⟨closing, by simp [expected], ?_⟩
    simp only [Progress.openCount, List.length_nil] at opened
    omega

end Progress

namespace Script

open Progress

/-- Reading that stops at an unexpected token stops there whatever follows it, and it stops in
the same way at every token of a kind that is not named, and at no other; but a block that is
closed where none is open has a rejection of its own. -/
theorem stopsAt_unexpected_iff {limit : Nat} {tokens before : List Token} {found : Token}
    {expected : List Token.Kind}
    (stops : StopsAt limit tokens before (.unexpected found expected)) :
    ((∃ rest, tokens = before ++ found :: rest) ∨
        tokens = before ∧
          found = ⟨.endOfInput, none, (before.map Token.position).getLastD .origin⟩) ∧
      (∀ rest, StopsAt limit (before ++ found :: rest) before (.unexpected found expected)) ∧
      ∀ other rest,
        (∀ reported kinds,
          StopsAt limit (before ++ other :: rest) before (.unexpected reported kinds) ↔
            reported = other ∧ kinds = expected ∧ other.kind ∉ expected ∧
              ¬ClosesNothing before expected other) ∧
        (ClosesNothing before expected other →
          parse (TokenQueue.ofList (before ++ other :: rest)) limit =
            .error (.faulty other.position .strayClose)) := by
  obtain ⟨stop, token, later, split, leads, refuses⟩ :=
    run_eq_error_and_consumed_iff.mp ⟨stops.result, stops.consumed⟩
  obtain ⟨rfl, rfl, -, -⟩ := refuses_unexpected_iff.mp refuses
  refine ⟨TokenQueue.split_of_toList_eq leads.unfinished split, ?_, ?_⟩
  · intro rest
    exact (stopsAt_append_iff leads).mpr refuses
  · intro other rest
    constructor
    · intro reported kinds
      rw [stopsAt_append_iff leads, refuses_unexpected_iff, leads.closesNothing_iff]
    · intro closesNothing
      obtain ⟨closing, header, root, rfl⟩ := leads.closesNothing_iff.mp closesNothing
      have unfinished : other.kind ≠ .endOfInput := by simp [closing]
      have refused : Refuses limit (.conditions header ⟨[], root⟩) other
          (.faulty other.position .strayClose) :=
        .stepped unfinished (step_of_closing closing)
      have stopped : StopsAt limit (before ++ other :: rest) before _ :=
        (stopsAt_append_iff leads).mpr refused
      exact stopped.result

def unfinishedTokens : List Token :=
  sentence (tokenize "NAME n PARAMETERS END ROUTINE")

def kindsAtTop : List Token.Kind :=
  [.keyword .and, .keyword .born, .keyword .species, .keyword .finish]

theorem stopsAt_unfinishedTokens :
    StopsAt 1 unfinishedTokens unfinishedTokens
      (.unexpected ⟨.endOfInput, none, ⟨0, 22⟩⟩ kindsAtTop) ∧
    parse (TokenQueue.ofList (unfinishedTokens ++ [⟨.mark .rightBrace, none, ⟨1, 0⟩⟩])) 1 =
      .error (.faulty ⟨1, 0⟩ .strayClose) ∧
    StopsAt 1 (unfinishedTokens ++ [⟨.keyword .name, none, ⟨1, 0⟩⟩]) unfinishedTokens
      (.unexpected ⟨.keyword .name, none, ⟨1, 0⟩⟩ kindsAtTop) := by
  have stops : StopsAt 1 unfinishedTokens unfinishedTokens
      (.unexpected ⟨.endOfInput, none, ⟨0, 22⟩⟩ kindsAtTop) := by
    refine ⟨?_, by decide +kernel⟩
    have rejected : (match parse (TokenQueue.ofList unfinishedTokens) 1 with
        | .ok _ => none
        | .error rejection => some rejection) =
        some (.unexpected ⟨.endOfInput, none, ⟨0, 22⟩⟩ kindsAtTop) := by
      decide +kernel
    cases read : parse (TokenQueue.ofList unfinishedTokens) 1 with
    | ok script =>
        rw [read] at rejected
        contradiction
    | error rejection =>
        rw [read] at rejected
        rw [Option.some.inj rejected]
  have elsewhere := (stopsAt_unexpected_iff stops).2.2
  refine ⟨stops, ?_, ?_⟩
  · exact (elsewhere _ []).2 ⟨rfl, by decide, by decide +kernel⟩
  · refine ((elsewhere _ []).1 _ _).mpr ⟨rfl, rfl, by decide, ?_⟩
    intro closes
    have closing := closes.closing
    contradiction

end Script

end Cohort
