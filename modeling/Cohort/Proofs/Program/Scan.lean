import Cohort.Program.Matching
import Cohort.Proofs.Condition.Structure

/-!
# Runs as scans

A run looks the date of birth up when a test first needs it, and remembers it.  This makes no
difference to the result, which is that of deciding every test afresh, from left to right, up to
the first that fails.
-/

namespace Cohort

variable {α β : Type}

/-- Whether a run remembers no other date of birth than that of the subject. -/
def Lookups.Agrees (subject : Subject) (lookups : Lookups) : Prop :=
  ∀ birth, lookups.birth = some birth → subject.birth = .ok birth

/-- Whether an outcome has a result and remembers nothing wrong. -/
structure Outcome.Gives (subject : Subject) (outcome : Outcome α)
    (result : Except MatchError α) : Prop where
  result : outcome.1 = result
  agrees : outcome.2.Agrees subject

namespace Subject

variable {subject : Subject} {lookups : Lookups}

def knownBirth (subject : Subject) : Except MatchError Timestamp :=
  subject.birth.mapError .fact

theorem lookupBirth_gives (agrees : lookups.Agrees subject) :
    (subject.lookupBirth lookups).Gives subject subject.knownBirth := by
  unfold lookupBirth knownBirth
  cases remembered : lookups.birth with
  | some birth =>
      rw [agrees birth remembered]
      exact ⟨rfl, agrees⟩
  | none =>
      cases known : subject.birth with
      | error failure => exact ⟨rfl, fun birth impossible => nomatch impossible⟩
      | ok birth =>
          refine ⟨rfl, fun other same => ?_⟩
          rw [← Option.some.inj same]
          exact known

theorem compareBirth_gives (moment : Except MatchError Timestamp) (holds : Int → Int → Bool)
    (agrees : lookups.Agrees subject) :
    (subject.compareBirth moment holds lookups).Gives subject do
      let moment ← moment
      let birth ← subject.knownBirth
      return holds birth.instant moment.instant := by
  unfold compareBirth
  cases moment with
  | error problem => exact ⟨rfl, agrees⟩
  | ok moment =>
      have looked := lookupBirth_gives agrees
      generalize subject.lookupBirth lookups = outcome at looked ⊢
      obtain ⟨found, later⟩ := outcome
      obtain ⟨foundIs, remembered⟩ := looked
      rw [← foundIs]
      cases found with
      | error problem => exact ⟨rfl, remembered⟩
      | ok birth => exact ⟨rfl, remembered⟩

end Subject

def Test.verdict (subject : Subject) (bindings : Bindings) (value : Value Timestamp) :
    Test → Except MatchError Bool
  | .bornAfter => do
      let moment ← value.resolveDate bindings .bornAfter
      let birth ← subject.knownBirth
      return moment.instant < birth.instant
  | .bornBefore => do
      let moment ← value.resolveDate bindings .bornBefore
      let birth ← subject.knownBirth
      return birth.instant < moment.instant
  | .speciesIs => do
      let wanted ← value.resolveInt32 bindings .speciesIs
      return subject.species == wanted

theorem Test.run_gives {subject : Subject} {lookups : Lookups} (bindings : Bindings)
    (value : Value Timestamp) (test : Test) (agrees : lookups.Agrees subject) :
    (test.run subject bindings value lookups).Gives subject
      (test.verdict subject bindings value) := by
  unfold run verdict
  cases test with
  | bornAfter => exact Subject.compareBirth_gives _ _ agrees
  | bornBefore => exact Subject.compareBirth_gives _ _ agrees
  | speciesIs =>
      dsimp only
      cases value.resolveInt32 bindings .speciesIs with
      | error problem => exact ⟨rfl, agrees⟩
      | ok wanted => exact ⟨rfl, agrees⟩

theorem allM_append (verdict : α → Except MatchError Bool) (first second : List α) :
    (first ++ second).allM verdict = do
      if ← first.allM verdict then second.allM verdict else return false := by
  induction first with
  | nil => rfl
  | cons leaf later inductionHypothesis =>
      rw [List.cons_append, List.allM_cons, List.allM_cons, inductionHypothesis]
      cases verdict leaf with
      | error problem => rfl
      | ok holds => cases holds <;> rfl

theorem allM_map (verdict : β → Except MatchError Bool) (leaf : α → β) (leaves : List α) :
    (leaves.map leaf).allM verdict = leaves.allM fun element => verdict (leaf element) := by
  induction leaves with
  | nil => rfl
  | cons first later inductionHypothesis =>
      rw [List.map_cons, List.allM_cons, List.allM_cons, inductionHypothesis]

/-- Where every element fails for a fact only, so does the whole list. -/
theorem allM_mapError {verdict : α → Except MatchError Bool} {answer : α → Except FactFailure Bool}
    {leaves : List α} (same : ∀ leaf ∈ leaves, verdict leaf = (answer leaf).mapError .fact) :
    leaves.allM verdict = (leaves.allM answer).mapError .fact := by
  induction leaves with
  | nil => rfl
  | cons leaf later inductionHypothesis =>
      rw [List.forall_mem_cons] at same
      rw [List.allM_cons, List.allM_cons, inductionHypothesis same.2, same.1]
      cases answer leaf with
      | error failure => rfl
      | ok holds => cases holds <;> rfl

namespace Condition

variable {subject : Subject}

/-- The results of several tests, up to the first that does not hold. -/
def scan (subject : Subject) (bindings : Bindings) (leaves : List (Test × Value Timestamp)) :
    Except MatchError Bool :=
  leaves.allM fun leaf => leaf.1.verdict subject bindings leaf.2

theorem runAll_gives {bindings : Bindings} {children : List (Condition Timestamp)}
    (gives : ∀ child ∈ children, ∀ lookups : Lookups, lookups.Agrees subject →
      (child.run subject bindings lookups).Gives subject (scan subject bindings child.tests))
    {lookups : Lookups} (agrees : lookups.Agrees subject) :
    (runAll subject bindings children lookups).Gives subject
      (scan subject bindings (children.flatMap tests)) := by
  induction children generalizing lookups with
  | nil => exact ⟨rfl, agrees⟩
  | cons child siblings inductionHypothesis =>
      rw [List.forall_mem_cons] at gives
      have first := gives.1 lookups agrees
      rw [runAll, List.flatMap_cons, scan, allM_append]
      change Outcome.Gives subject _ (do
        if ← scan subject bindings child.tests then
          scan subject bindings (siblings.flatMap tests)
        else
          return false)
      -- What the first child has looked up is what the later ones start with.
      generalize child.run subject bindings lookups = outcome at first ⊢
      obtain ⟨found, later⟩ := outcome
      obtain ⟨foundIs, remembered⟩ := first
      rw [← foundIs]
      rcases found with problem | holds
      · exact ⟨rfl, remembered⟩
      · cases holds with
        | false => exact ⟨rfl, remembered⟩
        | true => exact inductionHypothesis gives.2 remembered

/-- However conditions are nested, running them is scanning their tests. -/
theorem run_gives (bindings : Bindings) (condition : Condition Timestamp) {lookups : Lookups}
    (agrees : lookups.Agrees subject) :
    (condition.run subject bindings lookups).Gives subject
      (scan subject bindings condition.tests) := by
  induction condition using induction generalizing lookups with
  | all children inductionHypothesis =>
      rw [run, tests_all]
      exact runAll_gives (fun child membership lookups agrees =>
        inductionHypothesis child membership agrees) agrees
  | test kind value =>
      have gives := kind.run_gives bindings value agrees
      refine ⟨gives.result.trans ?_, gives.agrees⟩
      rw [tests_test, scan, List.allM_cons]
      cases kind.verdict subject bindings value with
      | error problem => rfl
      | ok holds => cases holds <;> rfl

end Condition

/-- Whether a group has a member is decided by its parameters and then by a scan of its tests. -/
theorem Program.admits_eq_scan (program : Program) (subject : Subject) (bindings : Bindings) :
    program.admits subject bindings =
      (bindings.check program.parameters).bind fun _ =>
        Condition.scan subject bindings program.root.tests := by
  unfold admits examine
  cases bindings.check program.parameters with
  | error problem => rfl
  | ok checked =>
      have agrees : Lookups.none.Agrees subject := fun birth impossible => nomatch impossible
      exact (program.root.run_gives bindings agrees).result

end Cohort
