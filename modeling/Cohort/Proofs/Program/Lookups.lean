import Cohort.Proofs.Program.Deciding

/-!
# Lookups of the date of birth

A run looks the date of birth up for the first test of it, if all tests before that one hold, and
never a second time.  So it makes no difference whether a source of facts would answer a second
lookup in the same way.
-/

namespace Cohort

/-- Run tests from left to right, up to the first that does not hold.  The answers may change:
`births` has the one that is given after so many lookups. -/
def runTests (species : Int32) (births : Nat → Except FactFailure Timestamp)
    (bindings : Bindings) : List (Test × Value Timestamp) → Lookups → Outcome Bool
  | [], lookups => (.ok true, lookups)
  | leaf :: later, lookups =>
      match leaf.1.run ⟨species, births lookups.count⟩ bindings leaf.2 lookups with
      | (.ok true, lookups) => runTests species births bindings later lookups
      | (.ok false, lookups) => (.ok false, lookups)
      | (.error problem, lookups) => (.error problem, lookups)

/-- Whether a test compares the date of birth with something. -/
def Test.asksBirth : Test → Bool
  | .bornAfter | .bornBefore => true
  | .speciesIs => false

/-- Whether a scan of tests comes to one of the date of birth: all tests before the first of them
are tests of the species, and hold. -/
def AsksBirth (species : Int32) (bindings : Bindings)
    (leaves : List (Test × Value Timestamp)) : Prop :=
  ∃ before leaf after, leaves = before ++ leaf :: after ∧ leaf.1.asksBirth = true ∧
    ∀ earlier ∈ before, earlier.1 = .speciesIs ∧
      earlier.2.bound? bindings = some (.int32 species)

/-- How often the date of birth has to be looked up: not at all where a parameter is not bound to
a value of its type, and otherwise once if the tests come to one that needs it. -/
inductive Program.NeedsLookups (program : Program) (species : Int32) (bindings : Bindings) :
    Nat → Prop where
  | unchecked {problem : MatchError} :
      program.parameters.findSome? (·.problem? bindings) = some problem →
      NeedsLookups program species bindings 0
  | asked :
      program.parameters.findSome? (·.problem? bindings) = none →
      AsksBirth species bindings program.root.tests →
      NeedsLookups program species bindings 1
  | unasked :
      program.parameters.findSome? (·.problem? bindings) = none →
      ¬AsksBirth species bindings program.root.tests →
      NeedsLookups program species bindings 0

/-- Check the parameters and run the tests, with answers that may change. -/
def Program.examineChanging (program : Program) (species : Int32)
    (births : Nat → Except FactFailure Timestamp) (bindings : Bindings) : Outcome Bool :=
  match bindings.check program.parameters with
  | .error problem => (.error problem, .none)
  | .ok () => runTests species births bindings program.root.tests .none

/-!
## Nesting
-/

variable {species : Int32} {births : Nat → Except FactFailure Timestamp} {bindings : Bindings}

theorem runTests_append (first second : List (Test × Value Timestamp)) (lookups : Lookups) :
    runTests species births bindings (first ++ second) lookups =
      match runTests species births bindings first lookups with
      | (.ok true, lookups) => runTests species births bindings second lookups
      | (.ok false, lookups) => (.ok false, lookups)
      | (.error problem, lookups) => (.error problem, lookups) := by
  induction first generalizing lookups with
  | nil => rfl
  | cons leaf later inductionHypothesis =>
      rw [List.cons_append, runTests, runTests]
      rcases leaf.1.run ⟨species, births lookups.count⟩ bindings leaf.2 lookups with
        ⟨_ | holds, after⟩
      · rfl
      · cases holds with
        | false => rfl
        | true => exact inductionHypothesis after

theorem runTests_singleton (leaf : Test × Value Timestamp) (lookups : Lookups) :
    runTests species births bindings [leaf] lookups =
      leaf.1.run ⟨species, births lookups.count⟩ bindings leaf.2 lookups := by
  simp only [runTests]
  rcases leaf.1.run ⟨species, births lookups.count⟩ bindings leaf.2 lookups with
    ⟨_ | holds, after⟩
  · rfl
  · cases holds <;> rfl

/-- However conditions are nested, their run is that of their tests, with the same lookups. -/
theorem Condition.run_eq_runTests (subject : Subject) (condition : Condition Timestamp)
    (lookups : Lookups) :
    condition.run subject bindings lookups =
      runTests subject.species (fun _ => subject.birth) bindings condition.tests lookups := by
  induction condition using Condition.induction generalizing lookups with
  | test kind value => simp only [run, tests_test, runTests_singleton]
  | all children inductionHypothesis =>
      rw [run, tests_all]
      induction children generalizing lookups with
      | nil => rfl
      | cons child siblings siblingsHypothesis =>
          rw [List.forall_mem_cons] at inductionHypothesis
          rw [runAll, List.flatMap_cons, runTests_append, inductionHypothesis.1]
          rcases runTests subject.species (fun _ => subject.birth) bindings child.tests lookups
            with ⟨_ | holds, after⟩
          · rfl
          · cases holds with
            | false => rfl
            | true => exact siblingsHypothesis inductionHypothesis.2 after

theorem Program.examine_eq_examineChanging (program : Program) (subject : Subject)
    (bindings : Bindings) :
    program.examine subject bindings =
      program.examineChanging subject.species (fun _ => subject.birth) bindings := by
  unfold examine examineChanging
  cases bindings.check program.parameters with
  | error problem => rfl
  | ok _ => exact Condition.run_eq_runTests subject program.root .none

/-!
## Counting
-/

theorem not_asksBirth_nil : ¬AsksBirth species bindings [] := by
  rintro ⟨before, leaf, after, split, -⟩
  simp at split

theorem asksBirth_cons_iff {leaf : Test × Value Timestamp}
    {later : List (Test × Value Timestamp)} :
    AsksBirth species bindings (leaf :: later) ↔
      leaf.1.asksBirth = true ∨
        (leaf.1 = .speciesIs ∧ leaf.2.bound? bindings = some (.int32 species)) ∧
          AsksBirth species bindings later := by
  constructor
  · rintro ⟨_ | ⟨first, before⟩, asking, after, split, asks, hold⟩
    · simp only [List.nil_append, List.cons.injEq] at split
      exact .inl (split.1 ▸ asks)
    · simp only [List.cons_append, List.cons.injEq] at split
      rw [List.forall_mem_cons, ← split.1] at hold
      exact .inr ⟨hold.1, before, asking, after, split.2, asks, hold.2⟩
  · rintro (asks | ⟨holds, before, asking, after, rfl, asks, hold⟩)
    · exact ⟨[], leaf, later, rfl, asks, List.forall_mem_nil _⟩
    · exact ⟨leaf :: before, asking, after, rfl, asks, List.forall_mem_cons.mpr ⟨holds, hold⟩⟩

theorem Subject.compareBirth_of_known (subject : Subject) (moment : Except MatchError Timestamp)
    (holds : Int → Int → Bool) {lookups : Lookups} {birth : Timestamp}
    (known : lookups.birth = some birth) :
    (subject.compareBirth moment holds lookups).2 = lookups := by
  cases moment with
  | error problem => rfl
  | ok moment => simp [compareBirth, lookupBirth, known]

/-- Once the date of birth is known it is not looked up again. -/
theorem Test.lookups_run_of_known (test : Test) (subject : Subject) (value : Value Timestamp)
    {lookups : Lookups} {birth : Timestamp} (known : lookups.birth = some birth) :
    (test.run subject bindings value lookups).2 = lookups := by
  cases test with
  | bornAfter => exact subject.compareBirth_of_known _ _ known
  | bornBefore => exact subject.compareBirth_of_known _ _ known
  | speciesIs =>
      rw [run]
      cases value.resolveInt32 bindings .speciesIs <;> rfl

theorem lookups_runTests_of_known {lookups : Lookups} {birth : Timestamp}
    (known : lookups.birth = some birth) (leaves : List (Test × Value Timestamp)) :
    (runTests species births bindings leaves lookups).2 = lookups := by
  induction leaves with
  | nil => rfl
  | cons leaf later inductionHypothesis =>
      have kept : (leaf.1.run ⟨species, births lookups.count⟩ bindings leaf.2 lookups).2 =
          lookups :=
        leaf.1.lookups_run_of_known _ leaf.2 known
      rw [runTests]
      rcases ran : leaf.1.run ⟨species, births lookups.count⟩ bindings leaf.2 lookups with
        ⟨_ | holds, after⟩
      all_goals
        rw [ran] at kept
        obtain rfl : after = lookups := kept
      · rfl
      · cases holds with
        | false => rfl
        | true => exact inductionHypothesis

/-- A test of the species looks nothing up. -/
theorem Test.run_speciesIs (subject : Subject) (value : Value Timestamp) (lookups : Lookups)
    {bound : Bound} (found : value.bound? bindings = some bound) (typed : bound.type = .int32) :
    Test.speciesIs.run subject bindings value lookups =
      (.ok (decide (bound = .int32 subject.species)), lookups) := by
  cases bound with
  | date moment => contradiction
  | int32 wanted =>
      simp only [run, Value.resolveInt32, Value.resolve_of_bound?_eq_some .int32 found,
        Bound.int32.injEq, Prod.mk.injEq, Except.ok.injEq, and_true]
      rw [Bool.eq_iff_iff, beq_iff_eq, decide_eq_true_eq]
      exact eq_comm

theorem Subject.compareBirth_of_unknown {subject : Subject} (moment : Timestamp)
    (holds : Int → Int → Bool) {lookups : Lookups} (unknown : lookups.birth = none) :
    subject.compareBirth (.ok moment) holds lookups =
      match subject.birth with
      | .ok birth =>
          (.ok (holds birth.instant moment.instant), ⟨some birth, lookups.count + 1⟩)
      | .error failure => (.error (.fact failure), ⟨none, lookups.count + 1⟩) := by
  simp only [compareBirth, lookupBirth, unknown]
  cases subject.birth <;> rfl

/-- The first test of the date of birth looks it up, and does not hold unless it is then known. -/
theorem Test.run_of_unknown {test : Test} (subject : Subject) {value : Value Timestamp}
    {lookups : Lookups} {bound : Bound} (asks : test.asksBirth = true)
    (found : value.bound? bindings = some bound) (typed : bound.type = test.operand)
    (unknown : lookups.birth = none) :
    (test.run subject bindings value lookups).2.count = lookups.count + 1 ∧
      ((test.run subject bindings value lookups).1 = .ok true →
        ∃ birth, (test.run subject bindings value lookups).2.birth = some birth) := by
  have resolved := Value.resolve_of_bound?_eq_some .date found
  cases test <;> cases bound <;> cases typed <;> try contradiction
  all_goals
    simp only [run, Value.resolveDate, resolved, Subject.compareBirth_of_unknown _ _ unknown]
    cases subject.birth with
    | error failure => simp
    | ok birth => simp

/-- What a run of tests adds to the lookups: one if the tests come to one that needs it. -/
theorem count_runTests {leaves : List (Test × Value Timestamp)} {lookups : Lookups}
    (typed : ∀ leaf ∈ leaves, ∃ bound,
      leaf.2.bound? bindings = some bound ∧ bound.type = leaf.1.operand)
    (unknown : lookups.birth = none) :
    (AsksBirth species bindings leaves →
      (runTests species births bindings leaves lookups).2.count = lookups.count + 1) ∧
    (¬AsksBirth species bindings leaves →
      (runTests species births bindings leaves lookups).2.count = lookups.count) := by
  induction leaves with
  | nil => exact ⟨fun asks => absurd asks not_asksBirth_nil, fun _ => rfl⟩
  | cons leaf later inductionHypothesis =>
      rcases leaf with ⟨kind, value⟩
      rw [List.forall_mem_cons] at typed
      rcases typed with ⟨⟨bound, found, boundType⟩, typedLater⟩
      have continues := inductionHypothesis typedLater
      rw [asksBirth_cons_iff, runTests]
      dsimp only at found boundType ⊢
      by_cases asks : kind.asksBirth = true
      · -- From here on the date of birth is known, or the run has failed.
        refine ⟨fun _ => ?_, fun not => absurd (.inl asks) not⟩
        rcases Test.run_of_unknown ⟨species, births lookups.count⟩ asks found boundType unknown
          with ⟨counted, remembered⟩
        rcases ran : kind.run ⟨species, births lookups.count⟩ bindings value lookups with
          ⟨_ | holds, after⟩
        all_goals rw [ran] at counted remembered
        · exact counted
        · cases holds with
          | false => exact counted
          | true =>
              rcases remembered rfl with ⟨birth, known⟩
              simp only [lookups_runTests_of_known known]
              exact counted
      · obtain rfl : kind = .speciesIs := by
          cases kind with
          | speciesIs => rfl
          | bornAfter | bornBefore => exact absurd rfl asks
        rw [Test.run_speciesIs _ value lookups found boundType]
        by_cases holds : bound = .int32 species
        · subst holds
          simpa [asks, found] using continues
        · simp [asks, found, holds]

namespace Program

variable {limits : Limits} {image : List UInt8} {program : Program}

/-- How often a loaded program looks the date of birth up, whatever the answers are. -/
theorem needsLookups_examineChanging (loaded : load limits image = .ok program) :
    program.NeedsLookups species bindings
      (program.examineChanging species births bindings).2.count := by
  have operands := (layout_of_load loaded).2.2.operands
  rw [examineChanging, Bindings.check_eq_findSome?]
  cases fine : program.parameters.findSome? (·.problem? bindings) with
  | some problem => exact .unchecked fine
  | none =>
      have typed : ∀ leaf ∈ program.root.tests, ∃ bound,
          leaf.2.bound? bindings = some bound ∧ bound.type = leaf.1.operand :=
        fun leaf membership => Value.exists_bound_of_suits fine (operands leaf membership)
      by_cases asks : AsksBirth species bindings program.root.tests
      · have once : (runTests species births bindings program.root.tests .none).2.count = 1 :=
          (count_runTests typed rfl).1 asks
        dsimp only
        rw [once]
        exact .asked fine asks
      · have never : (runTests species births bindings program.root.tests .none).2.count = 0 :=
          (count_runTests typed rfl).2 asks
        dsimp only
        rw [never]
        exact .unasked fine asks

/-- A run of a loaded program looks the date of birth up once if its parameters are bound as they
have to be and its tests come to one that needs the date, and otherwise not at all.  The same
holds where every lookup would be answered differently. -/
theorem needsLookups_examine (limits : Limits) (image : List UInt8) (program : Program)
    (loaded : load limits image = .ok program) (species : Int32) (bindings : Bindings) :
    (∀ birth, program.NeedsLookups species bindings
      (program.examine ⟨species, birth⟩ bindings).2.count) ∧
    ∀ births, program.NeedsLookups species bindings
      (program.examineChanging species births bindings).2.count := by
  constructor
  · intro birth
    rw [examine_eq_examineChanging]
    exact needsLookups_examineChanging loaded
  · intro births
    exact needsLookups_examineChanging loaded

/-- Both tests of the sample need the date of birth, which is looked up once for them. -/
theorem needsLookups_datedSample :
    load ⟨3, 1⟩ datedSample.layout = .ok datedSample ∧
    datedSample.NeedsLookups 7 (NameMap.ofEntries [("d", .date firstTick), ("u", .int32 7)])
      (datedSample.examine ⟨7, .ok ⟨⟨2020, 60, by decide, by decide⟩, .midnight, .utc⟩⟩
        (NameMap.ofEntries [("d", .date firstTick), ("u", .int32 7)])).2.count ∧
    (datedSample.examine ⟨7, .ok ⟨⟨2020, 60, by decide, by decide⟩, .midnight, .utc⟩⟩
      (NameMap.ofEntries [("d", .date firstTick), ("u", .int32 7)])).2.count = 1 := by
  have loaded : load ⟨3, 1⟩ datedSample.layout = .ok datedSample :=
    load_layout fits_datedSample wellFormed_datedSample
  refine ⟨loaded, ?_, rfl⟩
  exact (needsLookups_examine ⟨3, 1⟩ datedSample.layout datedSample loaded 7 _).1 _

end Program

end Cohort
