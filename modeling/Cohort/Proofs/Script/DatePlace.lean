import Cohort.Proofs.Script.Completion
import Cohort.Proofs.Script.DateTokens

/-!
# Places of dates

Where a date literal stands in a script, any other date may stand as well: the script is the same
but for that date.  A `DatePlace` is a condition that lacks the date of one of its tests.
-/

namespace Cohort

/-- A condition but for the date of one of its tests. -/
inductive DatePlace where
  | test (kind : Test)
  | all (before : List (Condition Date)) (inner : DatePlace) (after : List (Condition Date))

namespace DatePlace

/-- The condition with a date for the one that lacks. -/
def fill : DatePlace → (day : Date) → Condition Date
  | test kind, day => .test kind (.date day)
  | all before inner after, day => .all (before ++ inner.fill day :: after)

theorem fill_injective (place : DatePlace) : Function.Injective place.fill := by
  intro first second same
  induction place with
  | test kind =>
      obtain ⟨-, values⟩ := Condition.test.inj same
      exact Value.date.inj values
  | all before inner after inductionHypothesis =>
      have children := List.append_cancel_left (Condition.all.inj same)
      exact inductionHypothesis (List.cons.inj children).1

/-- The date in a place makes no difference to the number of levels. -/
theorem depth_fill_le {place : DatePlace} {first : Date} {bound : Nat}
    (within : (place.fill first).depth ≤ bound) (second : Date) :
    (place.fill second).depth ≤ bound := by
  induction place generalizing bound with
  | test kind => exact within
  | all before inner after inductionHypothesis =>
      cases bound with
      | zero => exact absurd within (Nat.not_le.mpr (Condition.depth_pos _))
      | succ bound =>
          simp only [fill, Condition.depth_all_le_succ_iff, List.forall_mem_append,
            List.forall_mem_cons] at within ⊢
          exact ⟨within.1, inductionHypothesis within.2.1, within.2.2⟩

/-- The date in a place makes no difference to the references. -/
theorem refersOnlyTo_fill {place : DatePlace} {first : Date} {names : List String}
    (refers : (place.fill first).RefersOnlyTo names) (second : Date) :
    (place.fill second).RefersOnlyTo names := by
  induction place with
  | test kind => exact Condition.refersOnlyTo_test_iff.mpr nofun
  | all before inner after inductionHypothesis =>
      simp only [fill, Condition.refersOnlyTo_all_iff, List.forall_mem_append,
        List.forall_mem_cons] at refers ⊢
      exact ⟨refers.1, inductionHypothesis refers.2.1, refers.2.2⟩

/-- The tests that come before the one in question. -/
def testsBefore : DatePlace → List (Test × Value Date)
  | test _ => []
  | all before inner _ => before.flatMap Condition.tests ++ inner.testsBefore

theorem exists_tests_fill (place : DatePlace) :
    ∃ kind later, ∀ day,
      (place.fill day).tests = place.testsBefore ++ (kind, .date day) :: later := by
  induction place with
  | test kind => exact ⟨kind, [], fun _ => rfl⟩
  | all before inner after inductionHypothesis =>
      obtain ⟨kind, later, tests⟩ := inductionHypothesis
      refine ⟨kind, later ++ after.flatMap Condition.tests, fun day => ?_⟩
      simp [fill, testsBefore, tests]

theorem getElem?_tests_fill (place : DatePlace) :
    ∃ kind, ∀ day, (place.fill day).tests[place.testsBefore.length]? = some (kind, .date day) := by
  obtain ⟨kind, later, tests⟩ := place.exists_tests_fill
  exact ⟨kind, fun day => by simp [tests]⟩

end DatePlace

/-!
## Counting tests
-/

/-- The number of semicolons among some tokens; there is one behind every test. -/
def semicolons (tokens : List Token) : Nat :=
  tokens.countP (·.kind = .mark .semicolon)

theorem semicolons_append (first second : List Token) :
    semicolons (first ++ second) = semicolons first + semicolons second :=
  List.countP_append

theorem DerivesTest.semicolons_eq {tokens : List Token} {kind : Test}
    (derives : DerivesTest tokens kind) : semicolons tokens = 0 := by
  cases derives <;> simp [semicolons, *]

theorem DerivesValue.semicolons_eq {tokens : List Token} {value : Value Date}
    (derives : DerivesValue tokens value) : semicolons tokens = 0 := by
  cases derives <;> simp [semicolons, *]

theorem DerivesDeclarations.semicolons_eq {tokens : List Token} {declared : List Declaration}
    (derives : DerivesDeclarations tokens declared) : semicolons tokens = 0 := by
  induction derives with
  | nil => rfl
  | cons word identifier _ _ inductionHypothesis =>
      unfold semicolons at inductionHypothesis ⊢
      simp [word, identifier, inductionHypothesis]

theorem DerivesHeader.semicolons_eq {tokens : List Token} {header : Header}
    (derives : DerivesHeader tokens header) : semicolons tokens = 0 := by
  cases derives with
  | intro word title _ heading declared finish routine =>
      have declaredNone := declared.semicolons_eq
      unfold semicolons at declaredNone ⊢
      simp [word, title, heading, finish, routine, declaredNone]

mutual

theorem DerivesCondition.semicolons_eq {tokens : List Token} {condition : Condition Date}
    (derives : DerivesCondition tokens condition) :
    semicolons tokens = condition.tests.length := by
  cases derives with
  | @test start operand semicolon kind value derivesTest derivesValue ending =>
      have single : semicolons [semicolon] = 1 := by simp [semicolons, ending]
      rw [semicolons_append, semicolons_append, derivesTest.semicolons_eq,
        derivesValue.semicolons_eq, single]
      rfl
  | @all word opening closing body children wordKind openingKind derivesBody closingKind =>
      have opened : semicolons [word, opening] = 0 := by simp [semicolons, wordKind, openingKind]
      have closed : semicolons [closing] = 0 := by simp [semicolons, closingKind]
      change semicolons ([word, opening] ++ (body ++ [closing])) = _
      rw [semicolons_append, semicolons_append, opened, closed, derivesBody.semicolons_eq,
        Condition.tests_all, Nat.zero_add, Nat.add_zero]

theorem DerivesConditions.semicolons_eq {tokens : List Token} {children : List (Condition Date)}
    (derives : DerivesConditions tokens children) :
    semicolons tokens = (children.flatMap Condition.tests).length := by
  cases derives with
  | nil => rfl
  | cons derivesChild derivesSiblings =>
      rw [semicolons_append, derivesChild.semicolons_eq, derivesSiblings.semicolons_eq,
        List.flatMap_cons, List.length_append]

end

/-!
## Date literals in derivations
-/

/-- An element of a list that has two parts is in the first part or in the second. -/
theorem split_of_append_eq {α : Type} {first rest before after : List α} {element : α}
    (same : first ++ rest = before ++ element :: after) :
    (∃ between, first = before ++ element :: between ∧ after = between ++ rest) ∨
      ∃ between, before = first ++ between ∧ rest = between ++ element :: after := by
  obtain ⟨between, shorter, longer⟩ | ⟨between, longer, shorter⟩ :=
    List.append_eq_append_iff.mp same
  · exact .inr ⟨between, shorter, longer⟩
  · cases between with
    | nil => exact .inr ⟨[], by simpa using longer.symm, shorter.symm⟩
    | cons other between =>
        obtain ⟨rfl, later⟩ := List.cons.inj shorter
        exact .inl ⟨between, longer, later⟩

def HasNoDate (tokens : List Token) : Prop :=
  ∀ token ∈ tokens, token.kind ≠ .dateLiteral

theorem HasNoDate.ne_append {tokens before after : List Token} {literal : Token}
    (noDate : HasNoDate tokens) (kind : literal.kind = .dateLiteral) :
    tokens ≠ before ++ literal :: after := by
  rintro rfl
  exact noDate literal (by simp) kind

theorem hasNoDate_singleton {token : Token} (kind : token.kind ≠ .dateLiteral) :
    HasNoDate [token] :=
  List.forall_mem_singleton.mpr kind

/-- A date literal is not found in tokens without one, but behind them. -/
theorem HasNoDate.split_of_append_eq {first rest before after : List Token} {literal : Token}
    (noDate : HasNoDate first) (kind : literal.kind = .dateLiteral)
    (same : first ++ rest = before ++ literal :: after) :
    ∃ between, before = first ++ between ∧ rest = between ++ literal :: after := by
  obtain ⟨between, inFirst, -⟩ | behind := Cohort.split_of_append_eq same
  · exact absurd inFirst (noDate.ne_append kind)
  · exact behind

theorem DerivesTest.hasNoDate {tokens : List Token} {kind : Test}
    (derives : DerivesTest tokens kind) : HasNoDate tokens := by
  cases derives <;> simp [HasNoDate, *]

theorem DerivesDeclarations.hasNoDate {tokens : List Token} {declared : List Declaration}
    (derives : DerivesDeclarations tokens declared) : HasNoDate tokens := by
  induction derives with
  | nil => exact List.forall_mem_nil _
  | cons word identifier _ _ inductionHypothesis =>
      simp only [HasNoDate, List.forall_mem_cons]
      exact ⟨by simp [word], by simp [identifier], inductionHypothesis⟩

theorem DerivesHeader.hasNoDate {tokens : List Token} {header : Header}
    (derives : DerivesHeader tokens header) : HasNoDate tokens := by
  cases derives with
  | intro word title _ heading declared finish routine =>
      have declaredNoDate := declared.hasNoDate
      simp only [HasNoDate, List.forall_mem_cons, List.forall_mem_append] at declaredNoDate ⊢
      exact ⟨by simp [word], by simp [title], by simp [heading], declaredNoDate, by simp [finish],
        by simp [routine], List.forall_mem_nil _⟩

/-- Whether a date literal between some tokens always derives what its date fills in. -/
def DerivesAround {α : Type} (derives : List Token → α → Prop) (before after : List Token)
    (fill : Date → α) : Prop :=
  ∀ literal day, literal.SpellsDate day → derives (before ++ literal :: after) (fill day)

theorem DerivesValue.exists_date {tokens before after : List Token} {value : Value Date}
    {literal semicolon : Token} (derives : DerivesValue tokens value)
    (ending : semicolon.kind = .mark .semicolon) (kind : literal.kind = .dateLiteral)
    (same : tokens ++ [semicolon] = before ++ literal :: after) :
    ∃ day, value = .date day ∧ after = [semicolon] ∧ semicolons before = 0 ∧
      ∀ other day, other.SpellsDate day → DerivesValue (before ++ [other]) (.date day) := by
  cases derives with
  | @reference word colon identifier name wordKind colonKind identifierKind carried =>
      have noDate : HasNoDate ([word, colon, identifier] ++ [semicolon]) := by
        simp [HasNoDate, wordKind, colonKind, identifierKind, ending]
      exact absurd same (noDate.ne_append kind)
  | @date word colon date text day wordKind colonKind dateKind carried found =>
      have noDate : HasNoDate [word, colon] := by simp [HasNoDate, wordKind, colonKind]
      obtain ⟨between, rfl, behind⟩ := noDate.split_of_append_eq kind same
      cases between with
      | nil =>
          obtain ⟨-, rfl⟩ := List.cons.inj behind
          refine ⟨day, rfl, rfl, by simp [semicolons, wordKind, colonKind], ?_⟩
          rintro other otherDay ⟨otherKind, otherText, otherCarried, spelled⟩
          have read := Date.ofLiteral?_eq_some_iff.mpr spelled
          exact .date wordKind colonKind otherKind otherCarried read
      | cons first between =>
          have endingNoDate : HasNoDate [semicolon] := hasNoDate_singleton (by simp [ending])
          exact absurd (List.cons.inj behind).2 (endingNoDate.ne_append kind)

mutual

theorem DerivesCondition.exists_place {tokens before after : List Token} {literal : Token}
    {condition : Condition Date} (derives : DerivesCondition tokens condition)
    (kind : literal.kind = .dateLiteral) (same : tokens = before ++ literal :: after) :
    ∃ (place : DatePlace) (day : Date), condition = place.fill day ∧
      semicolons before = place.testsBefore.length ∧
      DerivesAround DerivesCondition before after place.fill := by
  cases derives with
  | @test start operand semicolon test value derivesTest derivesValue ending =>
      obtain ⟨between, rfl, behind⟩ := derivesTest.hasNoDate.split_of_append_eq kind same
      obtain ⟨day, rfl, rfl, count, filled⟩ := derivesValue.exists_date ending kind behind
      refine ⟨.test test, day, rfl, ?_, ?_⟩
      · rw [semicolons_append, derivesTest.semicolons_eq, count]
        rfl
      · intro other otherDay spells
        have derivesOther :=
          DerivesCondition.test derivesTest (filled other otherDay spells) ending
        simpa [DatePlace.fill] using derivesOther
  | @all word opening closing body children wordKind openingKind derivesBody closingKind =>
      have noDate : HasNoDate [word, opening] := by simp [HasNoDate, wordKind, openingKind]
      obtain ⟨between, rfl, behind⟩ := noDate.split_of_append_eq kind same
      obtain ⟨later, inBody, rfl⟩ | ⟨later, -, inEnding⟩ := split_of_append_eq behind
      · obtain ⟨first, place, rest, day, rfl, count, filled⟩ :=
          derivesBody.exists_place kind inBody
        refine ⟨.all first place rest, day, rfl, ?_, ?_⟩
        · have opened : semicolons [word, opening] = 0 := by
            simp [semicolons, wordKind, openingKind]
          rw [semicolons_append, opened, count, Nat.zero_add, DatePlace.testsBefore]
        · intro other otherDay spells
          have derivesOther := DerivesCondition.all wordKind openingKind
            (filled other otherDay spells) closingKind
          simpa [DatePlace.fill] using derivesOther
      · have closingNoDate : HasNoDate [closing] := hasNoDate_singleton (by simp [closingKind])
        exact absurd inEnding (closingNoDate.ne_append kind)

theorem DerivesConditions.exists_place {tokens before after : List Token} {literal : Token}
    {children : List (Condition Date)} (derives : DerivesConditions tokens children)
    (kind : literal.kind = .dateLiteral) (same : tokens = before ++ literal :: after) :
    ∃ (first : List (Condition Date)) (place : DatePlace) (rest : List (Condition Date))
      (day : Date), children = first ++ place.fill day :: rest ∧
      semicolons before = (first.flatMap Condition.tests ++ place.testsBefore).length ∧
      DerivesAround DerivesConditions before after fun day => first ++ place.fill day :: rest := by
  cases derives with
  | nil => simp at same
  | @cons tokensFirst tokensRest child siblings derivesChild derivesSiblings =>
      obtain ⟨between, inFirst, rfl⟩ | ⟨between, rfl, inRest⟩ := split_of_append_eq same
      · obtain ⟨place, day, rfl, count, filled⟩ := derivesChild.exists_place kind inFirst
        refine ⟨[], place, siblings, day, rfl, count, ?_⟩
        intro other otherDay spells
        have derivesOther := DerivesConditions.cons (filled other otherDay spells) derivesSiblings
        simpa using derivesOther
      · obtain ⟨first, place, rest, day, rfl, count, filled⟩ :=
          derivesSiblings.exists_place kind inRest
        refine ⟨child :: first, place, rest, day, rfl, ?_, ?_⟩
        · rw [semicolons_append, derivesChild.semicolons_eq, count, List.flatMap_cons,
            List.append_assoc, ← List.length_append]
        · intro other otherDay spells
          have derivesOther := DerivesConditions.cons derivesChild (filled other otherDay spells)
          simpa using derivesOther

end

/-- A date literal in a script stands in a place for dates, behind as many tests as there are
semicolons before it. -/
theorem DerivesScript.exists_place {tokens before after : List Token} {literal : Token}
    {script : Script} (derives : DerivesScript tokens script)
    (kind : literal.kind = .dateLiteral) (same : tokens = before ++ literal :: after) :
    ∃ (place : DatePlace) (day : Date), script.root = place.fill day ∧
      semicolons before = place.testsBefore.length ∧
      DerivesAround DerivesScript before after
        fun day => ⟨script.name, script.parameters, place.fill day⟩ := by
  obtain ⟨opening, header, body, root, ending, derivesHeader, derivesBody, endingKind, whole,
    rfl⟩ := derives.exists_header
  rw [whole, List.append_assoc] at same
  obtain ⟨between, rfl, behind⟩ := derivesHeader.hasNoDate.split_of_append_eq kind same
  obtain ⟨later, inBody, rfl⟩ | ⟨later, -, inEnding⟩ := split_of_append_eq behind
  · obtain ⟨place, day, rfl, count, filled⟩ := derivesBody.exists_place kind inBody
    refine ⟨place, day, rfl, ?_, ?_⟩
    · rw [semicolons_append, derivesHeader.semicolons_eq, count, Nat.zero_add]
    · intro other otherDay spells
      have derivesOther := derivesHeader.derivesScript (filled other otherDay spells) endingKind
      simpa [Header.withRoot] using derivesOther
  · have endingNoDate : HasNoDate [ending] := hasNoDate_singleton (by simp [endingKind])
    exact absurd inEnding (endingNoDate.ne_append kind)

end Cohort
