import Cohort.Proofs.Bytecode.Acceptance
import Cohort.Proofs.Program.Scan

/-!
# What a loaded program decides

Loading makes sure that every test has a value of the type it needs as soon as the parameters are
bound.  So a run fails for a parameter that is not, or because the date of birth is not known, and
for nothing else.
-/

namespace Cohort

/-- What is wrong with the binding of a parameter, if anything is. -/
def Parameter.problem? (bindings : Bindings) (parameter : Parameter) : Option MatchError :=
  match bindings[parameter.name]? with
  | none => some (.missingBinding parameter.name parameter.type)
  | some bound =>
      if bound.type = parameter.type then none
      else some (.bindingType parameter.name parameter.type bound.type)

/-- What a value stands for: itself, or what is bound to the name. -/
def Value.bound? (bindings : Bindings) : Value Timestamp → Option Bound
  | .reference name => bindings[name]?
  | .date moment => some (.date moment)
  | .species id => some (.int32 id)

/-- What a test says of a subject, given what its value stands for.  Only a value of the type
that the test needs can be given. -/
def Test.answer (subject : Subject) : Test → Option Bound → Except FactFailure Bool
  | .bornAfter, some (.date moment) => do
      let birth ← subject.birth
      return moment.instant < birth.instant
  | .bornBefore, some (.date moment) => do
      let birth ← subject.birth
      return birth.instant < moment.instant
  | .speciesIs, some (.int32 id) => .ok (subject.species = id)
  | _, _ => .ok false

/-- What tests answer from left to right, up to the first that does not hold. -/
def scanAnswers (subject : Subject) (bindings : Bindings)
    (leaves : List (Test × Value Timestamp)) : Except FactFailure Bool :=
  leaves.allM fun leaf => leaf.1.answer subject (leaf.2.bound? bindings)

/-- What parameters and tests decide, however the tests are nested: the parameters are checked in
order, then the tests answer. -/
def decideMember (parameters : List Parameter) (leaves : List (Test × Value Timestamp))
    (subject : Subject) (bindings : Bindings) : Except MatchError Bool :=
  match parameters.findSome? (·.problem? bindings) with
  | some problem => .error problem
  | none =>
      (scanAnswers subject bindings leaves).mapError .fact

theorem Bindings.check_eq_findSome? (bindings : Bindings) (parameters : List Parameter) :
    bindings.check parameters =
      match parameters.findSome? (·.problem? bindings) with
      | some problem => .error problem
      | none => .ok () := by
  induction parameters with
  | nil => rfl
  | cons parameter later inductionHypothesis =>
      rw [List.findSome?_cons, check, checkParameter, Parameter.problem?]
      cases bindings[parameter.name]? with
      | none => rfl
      | some bound =>
          by_cases typed : bound.type = parameter.type
          · simp only [if_pos typed]
            exact inductionHypothesis
          · simp only [if_neg typed]

theorem Parameter.exists_bound_of_problem?_eq_none {bindings : Bindings} {parameter : Parameter}
    (fine : parameter.problem? bindings = none) :
    ∃ bound, bindings[parameter.name]? = some bound ∧ bound.type = parameter.type := by
  unfold problem? at fine
  cases found : bindings[parameter.name]? with
  | none =>
      rw [found] at fine
      cases fine
  | some bound =>
      rw [found] at fine
      by_cases typed : bound.type = parameter.type
      · exact ⟨bound, rfl, typed⟩
      · simp only [if_neg typed] at fine
        cases fine

theorem Parameter.problem?_eq_some_cases {bindings : Bindings} {parameter : Parameter}
    {problem : MatchError} (wrong : parameter.problem? bindings = some problem) :
    problem = .missingBinding parameter.name parameter.type ∨
      ∃ actual, actual ≠ parameter.type ∧
        problem = .bindingType parameter.name parameter.type actual := by
  unfold problem? at wrong
  cases found : bindings[parameter.name]? with
  | none =>
      rw [found] at wrong
      exact .inl (Option.some.inj wrong).symm
  | some bound =>
      rw [found] at wrong
      by_cases typed : bound.type = parameter.type
      · simp only [if_pos typed] at wrong
        cases wrong
      · simp only [if_neg typed, Option.some.injEq] at wrong
        exact .inr ⟨bound.type, typed, wrong.symm⟩

namespace Value

variable {bindings : Bindings}

/-- A value that suits a type stands for something of this type, once the parameters are bound. -/
theorem exists_bound_of_suits {declared : List Parameter} {type : ValueType}
    {value : Value Timestamp} (fine : declared.findSome? (·.problem? bindings) = none)
    (suits : value.Suits declared type) :
    ∃ bound, value.bound? bindings = some bound ∧ bound.type = type := by
  cases value with
  | reference name =>
      obtain ⟨parameter, membership, rfl, rfl⟩ := suits
      have fineHere := List.findSome?_eq_none_iff.mp fine parameter membership
      exact Parameter.exists_bound_of_problem?_eq_none fineHere
  | date moment => exact ⟨.date moment, rfl, suits.symm⟩
  | species id => exact ⟨.int32 id, rfl, suits.symm⟩

theorem resolve_of_bound?_eq_some {value : Value Timestamp} {bound : Bound} (type : ValueType)
    (found : value.bound? bindings = some bound) : value.resolve bindings type = .ok bound := by
  cases value with
  | reference name =>
      change bindings[name]? = some bound at found
      rw [resolve, found]
  | date moment =>
      cases found
      rfl
  | species id =>
      cases found
      rfl

end Value

theorem Test.verdict_eq_answer {subject : Subject} {bindings : Bindings} {test : Test}
    {value : Value Timestamp} {bound : Bound} (found : value.bound? bindings = some bound)
    (typed : bound.type = test.operand) :
    test.verdict subject bindings value =
      (test.answer subject (value.bound? bindings)).mapError .fact := by
  have resolved := fun type => Value.resolve_of_bound?_eq_some type found
  rw [found]
  cases test <;> cases bound <;> cases typed
  case bornAfter.date moment =>
      simp only [verdict, answer, Value.resolveDate, resolved, Subject.knownBirth]
      cases subject.birth <;> rfl
  case bornBefore.date moment =>
      simp only [verdict, answer, Value.resolveDate, resolved, Subject.knownBirth]
      cases subject.birth <;> rfl
  case speciesIs.int32 id =>
      simp only [verdict, answer, Value.resolveInt32, resolved]
      rfl

theorem Condition.scan_eq_scanAnswers {subject : Subject} {bindings : Bindings}
    {leaves : List (Test × Value Timestamp)}
    (bound : ∀ leaf ∈ leaves, ∃ bound,
      leaf.2.bound? bindings = some bound ∧ bound.type = leaf.1.operand) :
    scan subject bindings leaves = (scanAnswers subject bindings leaves).mapError .fact := by
  refine allM_mapError fun leaf membership => ?_
  obtain ⟨found, isFound, typed⟩ := bound leaf membership
  exact Test.verdict_eq_answer isFound typed

theorem Subject.birth_eq_error_of_bind {subject : Subject} {holds : Timestamp → Bool}
    {failure : FactFailure}
    (failed : (subject.birth >>= fun birth => pure (holds birth)) = .error failure) :
    subject.birth = .error failure := by
  cases known : subject.birth with
  | error reason =>
      rw [known] at failed
      cases failed
      rfl
  | ok birth =>
      rw [known] at failed
      cases failed

theorem Test.birth_eq_error_of_answer {subject : Subject} {test : Test} {bound : Option Bound}
    {failure : FactFailure} (failed : test.answer subject bound = .error failure) :
    subject.birth = .error failure := by
  unfold answer at failed
  split at failed
  next moment => exact Subject.birth_eq_error_of_bind failed
  next moment => exact Subject.birth_eq_error_of_bind failed
  next id => cases failed
  next => cases failed

theorem birth_eq_error_of_scanAnswers {subject : Subject} {bindings : Bindings}
    {leaves : List (Test × Value Timestamp)} {failure : FactFailure}
    (failed : scanAnswers subject bindings leaves = .error failure) :
    subject.birth = .error failure := by
  induction leaves with
  | nil => cases failed
  | cons leaf later inductionHypothesis =>
      rw [scanAnswers, List.allM_cons] at failed
      cases answered : leaf.1.answer subject (leaf.2.bound? bindings) with
      | error reason =>
          rw [answered] at failed
          cases failed
          exact Test.birth_eq_error_of_answer answered
      | ok holds =>
          rw [answered] at failed
          cases holds with
          | false => cases failed
          | true => exact inductionHypothesis failed

namespace Program

/-- A run of a loaded program fails for the first parameter that is not bound to a value of its
type, or because the date of birth is not known.  Otherwise its tests decide, however they are
nested, and every one of them is given a value of the type that it needs. -/
theorem admits_of_load (limits : Limits) (image : List UInt8) (program : Program)
    (loaded : load limits image = .ok program) (subject : Subject) (bindings : Bindings) :
    program.admits subject bindings =
        decideMember program.parameters program.root.tests subject bindings ∧
      (program.parameters.findSome? (·.problem? bindings) = none →
        ∀ leaf ∈ program.root.tests, ∃ bound,
          leaf.2.bound? bindings = some bound ∧ bound.type = leaf.1.operand) ∧
      ∀ problem, program.admits subject bindings = .error problem →
        (∃ parameter ∈ program.parameters,
          problem = .missingBinding parameter.name parameter.type ∨
          ∃ actual, actual ≠ parameter.type ∧
            problem = .bindingType parameter.name parameter.type actual) ∨
        program.parameters.findSome? (·.problem? bindings) = none ∧
          ∃ failure, subject.birth = .error failure ∧ problem = .fact failure := by
  have wellFormed := (layout_of_load loaded).2.2
  have bound : program.parameters.findSome? (·.problem? bindings) = none →
      ∀ leaf ∈ program.root.tests, ∃ bound,
        leaf.2.bound? bindings = some bound ∧ bound.type = leaf.1.operand :=
    fun fine leaf membership =>
      Value.exists_bound_of_suits fine (wellFormed.operands leaf membership)
  have decided : program.admits subject bindings =
      decideMember program.parameters program.root.tests subject bindings := by
    rw [admits_eq_scan, Bindings.check_eq_findSome?, decideMember]
    cases fine : program.parameters.findSome? (·.problem? bindings) with
    | some problem => rfl
    | none => exact Condition.scan_eq_scanAnswers (bound fine)
  refine ⟨decided, bound, fun problem failed => ?_⟩
  rw [decided, decideMember] at failed
  cases fine : program.parameters.findSome? (·.problem? bindings) with
  | some first =>
      simp only [fine, Except.error.injEq] at failed
      obtain ⟨parameter, membership, wrong⟩ := List.exists_of_findSome?_eq_some fine
      rw [← failed]
      exact .inl ⟨parameter, membership, Parameter.problem?_eq_some_cases wrong⟩
  | none =>
      simp only [fine] at failed
      cases scanned : scanAnswers subject bindings program.root.tests with
      | ok holds =>
          rw [scanned] at failed
          cases failed
      | error failure =>
          rw [scanned] at failed
          have unknown := birth_eq_error_of_scanAnswers scanned
          exact .inr ⟨rfl, failure, unknown, (Except.error.inj failed).symm⟩

/-- The first moment after the start of year 1 that bytecode can hold. -/
def firstTick : Timestamp where
  date := ⟨1, 1, by decide, by decide⟩
  time := .ofNanoseconds 100
  offset := .utc

/-- A program with a date parameter, a date within a day, and a parameter that no test needs. -/
def datedSample : Program where
  version := 1
  name := "g"
  parameters := [⟨"d", .date⟩, ⟨"u", .int32⟩]
  root := .all [.all [.test .bornAfter (.date firstTick)], .test .bornBefore (.reference "d")]

def datedSampleImage : List UInt8 :=
  [0, 1, 0, 0, 0, 34, 0, 1, 103, 0, 2, 1, 0, 1, 100, 2, 0, 1, 117, 1, 0, 2, 1, 0, 1, 2, 1, 0, 0,
    0, 0, 0, 0, 0, 1, 3, 0, 0, 1, 100]

theorem fits_datedSample : datedSample.Fits where
  name := ⟨by simp [datedSample], by decide⟩
  parameterCount := by decide
  parameterNames := by
    simp only [datedSample, List.forall_mem_cons]
    exact ⟨⟨by simp, by decide⟩, ⟨by simp, by decide⟩, List.forall_mem_nil _⟩
  root := by
    refine ⟨by decide, ?_⟩
    change ∀ leaf ∈ [_, _], _
    simp only [List.forall_mem_cons]
    have onTick : firstTick.OnTick := ⟨rfl, by decide, by decide, by decide⟩
    exact ⟨onTick, ⟨by simp, by decide⟩, List.forall_mem_nil _⟩
  body := by decide

theorem wellFormed_datedSample : datedSample.WellFormed ⟨3, 1⟩ where
  version := by decide
  distinctNames := by decide
  noReferenceTypes := by decide
  block := rfl
  depth := by decide
  operands := by
    change ∀ leaf ∈ [_, _], _
    simp only [List.forall_mem_cons]
    exact ⟨rfl, ⟨⟨"d", .date⟩, by decide, rfl, rfl⟩, List.forall_mem_nil _⟩

theorem admits_datedSample : load ⟨3, 1⟩ datedSampleImage = .ok datedSample ∧
    datedSample.admits ⟨7, .ok firstTick⟩ (NameMap.ofEntries [("d", .date firstTick)]) =
      .error (.missingBinding "u" .int32) ∧
    datedSample.admits ⟨7, .error (.provider "lost")⟩
        (NameMap.ofEntries [("d", .date firstTick), ("u", .int32 7)]) =
      .error (.fact (.provider "lost")) ∧
    datedSample.admits ⟨7, .ok firstTick⟩
        (NameMap.ofEntries [("d", .date firstTick), ("u", .int32 7)]) = .ok false := by
  have image : datedSampleImage = datedSample.layout := by decide +kernel
  have loaded : load ⟨3, 1⟩ datedSampleImage = .ok datedSample := by
    rw [image]
    exact load_layout fits_datedSample wellFormed_datedSample
  have decided := fun subject bindings =>
    (admits_of_load ⟨3, 1⟩ datedSampleImage datedSample loaded subject bindings).1
  refine ⟨loaded, ?_, ?_, ?_⟩
  · rw [decided]
    rfl
  · rw [decided]
    rfl
  · rw [decided]
    rfl

end Program

end Cohort
