import Cohort.Proofs.Bytecode.Faults
import Cohort.Proofs.Program.Deciding

/-!
# What a decision depends on

Two runs of a loaded program cannot be told apart if its parameters are bound alike and the facts
are alike.  They go through the same tests with the same results and the same lookups, whatever
clocks the moments are written on and whatever else is bound.
-/

namespace Cohort

variable {α β : Type}

/-- Whether two subjects have the same species, and dates of birth that fail in the same way or
mean the same moment. -/
structure Subject.Alike (first second : Subject) : Prop where
  species : first.species = second.species
  birth : first.birth.map Timestamp.instant = second.birth.map Timestamp.instant

/-- Whether a test of a program refers to a name. -/
def Program.RefersTo (program : Program) (name : String) : Prop :=
  ∃ leaf ∈ program.root.tests, leaf.2 = .reference name

/-- Whether a parameter is bound in neither of two bindings, or in both to values of one type; and
to values that mean the same if a test refers to the parameter. -/
def Program.BoundAlike (program : Program) (first second : Bindings) (parameter : Parameter) :
    Prop :=
  Option.Rel
    (fun bound other => bound.type = other.type ∧
      (program.RefersTo parameter.name → bound.agrees other = true))
    first[parameter.name]? second[parameter.name]?

/-- Whether a value means the same with two bindings, or is bound in neither. -/
def Value.MeansSame (first second : Bindings) (value : Value Timestamp) : Prop :=
  Option.Rel (fun bound other => bound.agrees other = true) (value.bound? first)
    (value.bound? second)

/-- Whether two runs have learnt the same moment of birth, with as many lookups. -/
structure Lookups.Alike (first second : Lookups) : Prop where
  birth : first.birth.map Timestamp.instant = second.birth.map Timestamp.instant
  count : first.count = second.count

/-- Whether two runs give results that mean the same, and have learnt the same. -/
structure Outcome.Alike (meaning : α → β) (first second : Outcome α) : Prop where
  result : first.1.map meaning = second.1.map meaning
  lookups : first.2.Alike second.2

theorem exists_of_map_eq_map {ε : Type} {meaning : α → β} {first second : Except ε α}
    (same : first.map meaning = second.map meaning) :
    (∃ problem, first = .error problem ∧ second = .error problem) ∨
      ∃ result other, first = .ok result ∧ second = .ok other ∧ meaning result = meaning other := by
  cases first with
  | error problem =>
      cases second with
      | error other => exact .inl ⟨problem, rfl, by rw [Except.error.inj same]⟩
      | ok other => contradiction
  | ok result =>
      cases second with
      | error other => contradiction
      | ok other => exact .inr ⟨result, other, rfl, rfl, Except.ok.inj same⟩

/-!
## Values
-/

theorem Bound.agrees_self (bound : Bound) : bound.agrees bound = true := by
  cases bound <;> simp [agrees]

variable {first second : Bindings}

/-- What is wrong with the binding of a parameter is seen from its type. -/
theorem Parameter.problem?_eq_of_boundAlike {program : Program} {parameter : Parameter}
    (alike : program.BoundAlike first second parameter) :
    parameter.problem? first = parameter.problem? second := by
  unfold Program.BoundAlike at alike
  unfold problem?
  generalize first[parameter.name]? = found, second[parameter.name]? = other at alike ⊢
  cases alike with
  | none => rfl
  | some same => simp only [same.1]

namespace Value

variable {value : Value Timestamp}

/-- A value of a loaded program is a literal, or refers to a parameter. -/
theorem meansSame_of_boundAlike {program : Program} {test : Test} {type : ValueType}
    (alike : ∀ parameter ∈ program.parameters, program.BoundAlike first second parameter)
    (membership : (test, value) ∈ program.root.tests)
    (suits : value.Suits program.parameters type) : value.MeansSame first second := by
  cases value with
  | date moment => exact .some (Bound.agrees_self _)
  | species id => exact .some (Bound.agrees_self _)
  | reference name =>
      obtain ⟨parameter, declared, rfl, -⟩ := suits
      have boundAlike := alike parameter declared
      unfold Program.BoundAlike at boundAlike
      change Option.Rel _ first[parameter.name]? second[parameter.name]?
      generalize first[parameter.name]? = found, second[parameter.name]? = other at boundAlike ⊢
      cases boundAlike with
      | none => exact .none
      | some same => exact .some (same.2 ⟨_, membership, rfl⟩)

theorem resolve_cases (same : value.MeansSame first second) (type : ValueType) :
    (∃ problem, value.resolve first type = .error problem ∧
      value.resolve second type = .error problem) ∨
    ∃ bound other, value.resolve first type = .ok bound ∧ value.resolve second type = .ok other ∧
      bound.agrees other = true := by
  cases value with
  | date moment => exact .inr ⟨_, _, rfl, rfl, Bound.agrees_self _⟩
  | species id => exact .inr ⟨_, _, rfl, rfl, Bound.agrees_self _⟩
  | reference name =>
      change Option.Rel _ first[name]? second[name]? at same
      simp only [resolve]
      generalize first[name]? = found, second[name]? = other at same ⊢
      cases same with
      | none => exact .inl ⟨_, rfl, rfl⟩
      | some agree => exact .inr ⟨_, _, rfl, rfl, agree⟩

theorem resolveInt32_eq (same : value.MeansSame first second) (test : Test) :
    value.resolveInt32 first test = value.resolveInt32 second test := by
  unfold resolveInt32
  rcases resolve_cases same .int32 with ⟨problem, found, otherFound⟩ |
    ⟨bound, other, found, otherFound, agree⟩
  · rw [found, otherFound]
  · rw [found, otherFound]
    cases bound <;> cases other <;> simp_all [Bound.agrees, Bound.type]

theorem map_resolveDate_eq (same : value.MeansSame first second) (test : Test) :
    (value.resolveDate first test).map Timestamp.instant =
      (value.resolveDate second test).map Timestamp.instant := by
  unfold resolveDate
  rcases resolve_cases same .date with ⟨problem, found, otherFound⟩ |
    ⟨bound, other, found, otherFound, agree⟩
  · rw [found, otherFound]
  · rw [found, otherFound]
    cases bound <;> cases other <;> simp_all [Bound.agrees, Bound.type, Except.map]

end Value

/-!
## Runs
-/

variable {subject other : Subject} {lookups otherLookups : Lookups}

namespace Subject

theorem lookupBirth_alike (facts : subject.Alike other) (learnt : lookups.Alike otherLookups) :
    (subject.lookupBirth lookups).Alike Timestamp.instant (other.lookupBirth otherLookups) := by
  obtain ⟨birth, count⟩ := lookups
  obtain ⟨otherBirth, otherCount⟩ := otherLookups
  obtain ⟨births, counts⟩ := learnt
  unfold lookupBirth
  cases birth with
  | some birth =>
      cases otherBirth with
      | none => contradiction
      | some otherBirth =>
          exact ⟨congrArg Except.ok (Option.some.inj births), births, counts⟩
  | none =>
      cases otherBirth with
      | some otherBirth => contradiction
      | none =>
          have counted : count + 1 = otherCount + 1 := congrArg (· + 1) counts
          rcases exists_of_map_eq_map facts.birth with ⟨failure, failed, otherFailed⟩ |
            ⟨birth, otherBirth, known, otherKnown, same⟩
          · rw [failed, otherFailed]
            exact ⟨rfl, rfl, counted⟩
          · rw [known, otherKnown]
            exact ⟨congrArg Except.ok same, congrArg some same, counted⟩

theorem compareBirth_alike (facts : subject.Alike other)
    {moment otherMoment : Except MatchError Timestamp}
    (moments : moment.map Timestamp.instant = otherMoment.map Timestamp.instant)
    (holds : Int → Int → Bool) (learnt : lookups.Alike otherLookups) :
    (subject.compareBirth moment holds lookups).Alike id
      (other.compareBirth otherMoment holds otherLookups) := by
  unfold compareBirth
  rcases exists_of_map_eq_map moments with ⟨problem, rfl, rfl⟩ |
    ⟨moment, otherMoment, rfl, rfl, sameMoment⟩
  · exact ⟨rfl, learnt⟩
  · have looked := lookupBirth_alike facts learnt
    generalize subject.lookupBirth lookups = outcome,
      other.lookupBirth otherLookups = otherOutcome at looked ⊢
    obtain ⟨found, later⟩ := outcome
    obtain ⟨otherFound, otherLater⟩ := otherOutcome
    obtain ⟨births, learntLater⟩ := looked
    rcases exists_of_map_eq_map births with ⟨problem, rfl, rfl⟩ |
      ⟨birth, otherBirth, rfl, rfl, sameBirth⟩
    · exact ⟨rfl, learntLater⟩
    · refine ⟨?_, learntLater⟩
      simp only [sameMoment, sameBirth]

end Subject

/-- A test takes two runs that have learnt the same to results that are the same. -/
theorem Test.run_alike (facts : subject.Alike other) {value : Value Timestamp}
    (same : value.MeansSame first second) (test : Test) (learnt : lookups.Alike otherLookups) :
    (test.run subject first value lookups).Alike id
      (test.run other second value otherLookups) := by
  unfold run
  cases test with
  | bornAfter =>
      exact Subject.compareBirth_alike facts (Value.map_resolveDate_eq same .bornAfter) _ learnt
  | bornBefore =>
      exact Subject.compareBirth_alike facts (Value.map_resolveDate_eq same .bornBefore) _ learnt
  | speciesIs =>
      dsimp only
      rw [Value.resolveInt32_eq same, facts.species]
      cases value.resolveInt32 second .speciesIs with
      | error problem => exact ⟨rfl, learnt⟩
      | ok wanted => exact ⟨rfl, learnt⟩

namespace Condition

theorem runAll_alike {children : List (Condition Timestamp)}
    (alike : ∀ child ∈ children, ∀ {lookups otherLookups : Lookups},
      lookups.Alike otherLookups →
      (child.run subject first lookups).Alike id (child.run other second otherLookups))
    (learnt : lookups.Alike otherLookups) :
    (runAll subject first children lookups).Alike id
      (runAll other second children otherLookups) := by
  induction children generalizing lookups otherLookups with
  | nil => exact ⟨rfl, learnt⟩
  | cons child siblings inductionHypothesis =>
      rw [List.forall_mem_cons] at alike
      have ran := alike.1 learnt
      rw [runAll, runAll]
      generalize child.run subject first lookups = outcome,
        child.run other second otherLookups = otherOutcome at ran ⊢
      obtain ⟨found, later⟩ := outcome
      obtain ⟨otherFound, otherLater⟩ := otherOutcome
      obtain ⟨results, learntLater⟩ := ran
      rcases exists_of_map_eq_map results with ⟨problem, rfl, rfl⟩ | ⟨holds, _, rfl, rfl, rfl⟩
      · exact ⟨rfl, learntLater⟩
      · cases holds with
        | false => exact ⟨rfl, learntLater⟩
        | true => exact inductionHypothesis alike.2 learntLater

/-- Two runs of a condition whose values mean the same stay alike, test by test. -/
theorem run_alike (facts : subject.Alike other) {condition : Condition Timestamp}
    (same : ∀ leaf ∈ condition.tests, leaf.2.MeansSame first second)
    (learnt : lookups.Alike otherLookups) :
    (condition.run subject first lookups).Alike id
      (condition.run other second otherLookups) := by
  induction condition using Condition.induction generalizing lookups otherLookups with
  | test kind value =>
      rw [run, run]
      exact kind.run_alike facts (same (kind, value) (List.mem_singleton.mpr rfl)) learnt
  | all children inductionHypothesis =>
      rw [forall_mem_tests_all_iff] at same
      rw [run, run]
      exact runAll_alike
        (fun child membership => inductionHypothesis child membership (same child membership))
        learnt

end Condition

namespace Program

/-- A decision depends on nothing but the facts and the values of the declared parameters, and of
dates on the moments meant only.  Where these are alike it is the same, after as many lookups,
whatever else is bound; the value of a parameter that no test refers to only has a type. -/
theorem admits_eq_of_alike (limits : Limits) (image : List UInt8) (program : Program)
    (loaded : load limits image = .ok program) (subject other : Subject)
    (facts : subject.Alike other) (first second : Bindings)
    (alike : ∀ parameter ∈ program.parameters, program.BoundAlike first second parameter) :
    program.admits subject first = program.admits other second ∧
      (program.examine subject first).2.count = (program.examine other second).2.count := by
  have checked : first.check program.parameters = second.check program.parameters := by
    rw [Bindings.check_eq_findSome?, Bindings.check_eq_findSome?,
      findSome?_congr fun parameter membership =>
        Parameter.problem?_eq_of_boundAlike (alike parameter membership)]
  have operands := (layout_of_load loaded).2.2.operands
  have same : ∀ leaf ∈ program.root.tests, leaf.2.MeansSame first second :=
    fun leaf membership =>
      Value.meansSame_of_boundAlike alike membership (operands leaf membership)
  unfold admits examine
  rw [checked]
  cases second.check program.parameters with
  | error problem => exact ⟨rfl, rfl⟩
  | ok _ =>
      have ran := Condition.run_alike facts same (⟨rfl, rfl⟩ : Lookups.none.Alike .none)
      have results := ran.result
      rw [Except.map_id, id, id] at results
      exact ⟨results, ran.lookups.count⟩

/-- The end of February 2024, half an hour before midnight in UTC. -/
def endOfFebruary : Timestamp where
  date := ⟨2024, 60, by decide, by decide⟩
  time := .ofNanoseconds 84600000000000
  offset := .utc

/-- The same moment on a clock that already shows March. -/
def startOfMarch : Timestamp where
  date := ⟨2024, 61, by decide, by decide⟩
  time := .ofNanoseconds 7200000000000
  offset := { seconds := 9000 }

/-- The first moment in UTC that is beyond the calendar, on a clock that is three hours behind. -/
def lastEvening : Timestamp where
  date := ⟨9999, 365, by decide, by decide⟩
  time := .ofNanoseconds 75600000000000
  offset := { seconds := -10800 }

/-- The same moment on a clock that is twelve hours behind. -/
def lastNoon : Timestamp where
  date := ⟨9999, 365, by decide, by decide⟩
  time := .ofNanoseconds 43200000000000
  offset := { seconds := -43200 }

/-- No clock, no unused value and no other name makes a difference to the sample. -/
theorem admits_datedSample_alike :
    load ⟨3, 1⟩ datedSample.layout = .ok datedSample ∧
    (Subject.mk 7 (.ok endOfFebruary)).Alike ⟨7, .ok startOfMarch⟩ ∧
    datedSample.admits ⟨7, .ok endOfFebruary⟩
        (NameMap.ofEntries [("d", .date lastEvening), ("u", .int32 7)]) =
      datedSample.admits ⟨7, .ok startOfMarch⟩
        (NameMap.ofEntries [("d", .date lastNoon), ("u", .int32 (-1)), ("x", .int32 0)]) ∧
    datedSample.admits ⟨7, .ok endOfFebruary⟩
        (NameMap.ofEntries [("d", .date lastEvening), ("u", .int32 7)]) = .ok true := by
  have loaded : load ⟨3, 1⟩ datedSample.layout = .ok datedSample :=
    load_layout fits_datedSample wellFormed_datedSample
  have facts : (Subject.mk 7 (.ok endOfFebruary)).Alike ⟨7, .ok startOfMarch⟩ :=
    ⟨rfl, congrArg Except.ok (by decide)⟩
  have alike : ∀ parameter ∈ datedSample.parameters, datedSample.BoundAlike
      (NameMap.ofEntries [("d", .date lastEvening), ("u", .int32 7)])
      (NameMap.ofEntries [("d", .date lastNoon), ("u", .int32 (-1)), ("x", .int32 0)])
      parameter := by
    simp only [datedSample, List.forall_mem_cons]
    refine ⟨?_, ?_, List.forall_mem_nil _⟩
    · exact .some ⟨rfl, fun _ => by decide⟩
    · refine .some ⟨rfl, ?_⟩
      rintro ⟨leaf, membership, reference⟩
      change leaf ∈ [_, _] at membership
      simp only [List.mem_cons, List.not_mem_nil, or_false] at membership
      rcases membership with rfl | rfl <;> simp at reference
  exact ⟨loaded, facts,
    (admits_eq_of_alike ⟨3, 1⟩ datedSample.layout datedSample loaded _ _ facts _ _ alike).1, rfl⟩

end Program

end Cohort
