import Cohort.Program.FromSource
import Cohort.Proofs.Bytecode.Faults
import Cohort.Proofs.Bytecode.RoundTrip
import Cohort.Proofs.Script.Recognition

/-!
# What is refused after reading

Reading a script settles its nesting and the scope of its names, and compiling it settles what the
format can hold.  Loading refuses the result for three reasons only, which are read off the script.
-/

namespace Cohort

/-- The fault of a test whose value has the wrong type, where all parameters are species. -/
def Test.mistyped? : Test → Value Date → Option LoadError
  | .bornAfter, .reference _ | .bornAfter, .species _ =>
      some (.typeMismatch (.test .bornAfter) .date .int32)
  | .bornBefore, .reference _ | .bornBefore, .species _ =>
      some (.typeMismatch (.test .bornBefore) .date .int32)
  | .speciesIs, .date _ => some (.typeMismatch (.test .speciesIs) .int32 .date)
  | .bornAfter, .date _ | .bornBefore, .date _ => none
  | .speciesIs, .reference _ | .speciesIs, .species _ => none

namespace Script

/-- Why a script that has been read is not loaded, if it is not: the version is not supported, or
a test has a value of the wrong type, or the whole condition is not a block. -/
def refusal? (limits : Limits) (script : Script) : Option LoadError :=
  if limits.maxVersion = 0 then
    some (.unsupportedVersion 1 0)
  else
    (script.root.tests.findSome? fun leaf => leaf.1.mistyped? leaf.2).or <|
      if script.root.isBlock then none else some (.rootNotBlock script.root.opcode)

theorem find?_program_parameters {script : Script} (distinct : script.declaredNames.Nodup)
    {name : String} (declared : name ∈ script.declaredNames) :
    ∃ parameter, script.program.parameters.find? (·.name == name) = some parameter ∧
      parameter.type = .int32 := by
  rw [← map_name_program_parameters] at distinct
  obtain ⟨parameter, membership, named, typed⟩ :=
    exists_program_parameter_iff.mpr ⟨declared, rfl⟩
  exact ⟨parameter, (find?_name_eq_some_iff distinct).mpr ⟨membership, named⟩, typed⟩

theorem fault?_map_midnight {script : Script} (distinct : script.declaredNames.Nodup)
    {kind : Test} {value : Value Date} (refers : value.RefersOnlyTo script.declaredNames) :
    (value.map Date.midnight).fault? script.program.parameters kind = kind.mistyped? value := by
  cases value with
  | reference name =>
      obtain ⟨parameter, found, typed⟩ := find?_program_parameters distinct (refers name rfl)
      rw [Value.map, Value.fault?, found]
      dsimp only
      rw [typed]
      cases kind <;> rfl
  | date day => cases kind <;> rfl
  | species id => cases kind <;> rfl

theorem opcode_map (condition : Condition Date) :
    (condition.map Date.midnight).opcode = condition.opcode := by
  cases condition <;> rfl

theorem findSome?_fault?_program {script : Script} (distinct : script.declaredNames.Nodup)
    (references : script.root.RefersOnlyTo script.declaredNames) :
    (script.program.root.tests.findSome? fun leaf =>
        leaf.2.fault? script.program.parameters leaf.1) =
      script.root.tests.findSome? fun leaf => leaf.1.mistyped? leaf.2 := by
  have tests : script.program.root.tests =
      script.root.tests.map fun leaf => (leaf.1, leaf.2.map Date.midnight) :=
    Condition.tests_map Date.midnight script.root
  rw [tests, List.findSome?_map]
  exact findSome?_congr fun leaf membership =>
    fault?_map_midnight distinct (references leaf membership)

theorem supportedVersion_lt_one_iff {limits : Limits} :
    limits.supportedVersion < 1 ↔ limits.maxVersion = 0 :=
  calc
    limits.supportedVersion < 1 ↔ ¬1 ≤ min limits.maxVersion 1 := UInt16.not_le.symm
    _ ↔ ¬1 ≤ limits.maxVersion := not_congr one_le_min_one_iff
    _ ↔ limits.maxVersion < 1 := UInt16.not_le
    _ ↔ limits.maxVersion = 0 := UInt16.lt_one_iff

/-- Where names and nesting are in order, the first fault of the program of a script is what the
script is refused for. -/
theorem fault?_program {limits : Limits} {script : Script}
    (wellScoped : script.Scoped limits.maxDepth) :
    script.program.fault? limits = script.refusal? limits := by
  have noReference : ∀ parameter ∈ script.program.parameters, parameter.type ≠ .reference := by
    intro parameter membership
    obtain ⟨declaration, declared, rfl⟩ := List.mem_map.mp membership
    exact ValueType.noConfusion
  have distinct : (script.program.parameters.map Parameter.name).Nodup := by
    rw [map_name_program_parameters]
    exact wellScoped.distinctNames
  have parameters : Parameter.firstFault? [] script.program.parameters = none :=
    Parameter.firstFault?_eq_none noReference distinct
  have within : script.program.root.depth ≤ limits.maxDepth := by
    simpa [program] using wellScoped.depth
  have block : script.program.root.isBlock = script.root.isBlock :=
    Condition.isBlock_map Date.midnight script.root
  have opcode : script.program.root.opcode = script.root.opcode := opcode_map script.root
  have version : script.program.version = 1 := rfl
  rw [Program.fault?, refusal?, version, parameters, Condition.fault?_of_depth_le within,
    findSome?_fault?_program wellScoped.distinctNames wellScoped.references, block, opcode]
  by_cases unsupported : limits.maxVersion = 0
  · have older : limits.supportedVersion < 1 := supportedVersion_lt_one_iff.mpr unsupported
    rw [if_pos older, if_pos unsupported, UInt16.lt_one_iff.mp older]
  · rw [if_neg (mt supportedVersion_lt_one_iff.mp unsupported), if_neg unsupported]
    rfl

theorem exists_of_mistyped?_eq_some {kind : Test} {value : Value Date} {problem : LoadError}
    (mistyped : kind.mistyped? value = some problem) :
    ∃ actual, actual ≠ kind.operand ∧
      problem = .typeMismatch (.test kind) kind.operand actual := by
  cases kind <;> cases value <;> cases mistyped
  · exact ⟨.int32, nofun, rfl⟩
  · exact ⟨.int32, nofun, rfl⟩
  · exact ⟨.int32, nofun, rfl⟩
  · exact ⟨.int32, nofun, rfl⟩
  · exact ⟨.date, nofun, rfl⟩

theorem refusal?_eq_some_cases {limits : Limits} {script : Script} {problem : LoadError}
    (refused : script.refusal? limits = some problem) :
    problem = .unsupportedVersion 1 0 ∨
      (∃ kind actual, actual ≠ kind.operand ∧
        problem = .typeMismatch (.test kind) kind.operand actual) ∨
      ∃ kind, problem = .rootNotBlock (.test kind) := by
  unfold refusal? at refused
  by_cases unsupported : limits.maxVersion = 0
  · rw [if_pos unsupported] at refused
    exact .inl (Option.some.inj refused).symm
  · rw [if_neg unsupported, Option.or_eq_some_iff] at refused
    rcases refused with mistyped | ⟨-, leafRoot⟩
    · obtain ⟨leaf, -, found⟩ := List.exists_of_findSome?_eq_some mistyped
      exact .inr (.inl ⟨leaf.1, exists_of_mistyped?_eq_some found⟩)
    · cases root : script.root with
      | all children =>
          rw [root] at leafRoot
          cases leafRoot
      | test kind value =>
          rw [root] at leafRoot
          exact .inr (.inr ⟨kind, (Option.some.inj leafRoot).symm⟩)

end Script

namespace Program

/-- What becomes of a source that is read and compiled: loading refuses it for an unsupported
version, else for the first test with a value of the wrong type, else if the whole condition is no
block, and for nothing else.  Otherwise it gives the program that holds the script. -/
theorem ofSource_of_compile (limits : Limits) (source : String) (script : Script)
    (image : List UInt8) (read : Script.ofSource source limits.maxDepth = .ok script)
    (compiled : script.compile = .ok image) :
    ofSource limits source =
        (script.refusal? limits).elim (.ok script.program) (fun problem =>
          .error (.notLoaded problem)) ∧
      ∀ problem, ofSource limits source = .error problem →
        problem = .notLoaded (.unsupportedVersion 1 0) ∨
        (∃ kind actual, actual ≠ kind.operand ∧
          problem = .notLoaded (.typeMismatch (.test kind) kind.operand actual)) ∨
        ∃ kind, problem = .notLoaded (.rootNotBlock (.test kind)) := by
  have wellScoped := (Script.parse_source_eq_ok_iff.mp read).2
  obtain ⟨fits, rfl⟩ := Script.compile_eq_ok_iff.mp compiled
  have loaded : load limits script.program.layout =
      (script.refusal? limits).elim (.ok script.program) .error := by
    rw [load_layout_eq fits, Script.fault?_program wellScoped]
  have outcome : ofSource limits source =
      (script.refusal? limits).elim (.ok script.program) (fun problem =>
        .error (.notLoaded problem)) := by
    simp only [ofSource, read, compiled, loaded]
    cases script.refusal? limits <;> rfl
  refine ⟨outcome, fun problem failed => ?_⟩
  rw [outcome] at failed
  cases refused : script.refusal? limits with
  | none =>
      rw [refused] at failed
      cases failed
  | some reason =>
      rw [refused] at failed
      obtain rfl := Except.error.inj failed
      simpa using Script.refusal?_eq_some_cases refused

def mistypedSource : String :=
  "NAME g PARAMETERS SPECIES s END ROUTINE AND \x7b BORN AFTER DATE:29/02/2020; " ++
    "AND \x7b BORN BEFORE PARAM:s; SPECIES IS DATE:29/02/2020; \x7d \x7d END"

theorem ofSource_mistypedSource : ∃ script image,
    Script.ofSource mistypedSource 3 = .ok script ∧ script.compile = .ok image ∧
    ofSource ⟨3, 1⟩ mistypedSource =
      .error (.notLoaded (.typeMismatch (.test .bornBefore) .date .int32)) := by
  have evaluated : ((Script.ofSource mistypedSource 3).toOption.any fun script =>
      script.compile.toBool && decide (script.refusal? ⟨3, 1⟩ =
        some (.typeMismatch (.test .bornBefore) .date .int32))) = true := by decide +kernel
  cases read : Script.ofSource mistypedSource 3 with
  | error rejection =>
      rw [read] at evaluated
      cases evaluated
  | ok script =>
      rw [read] at evaluated
      obtain ⟨compiles, refused⟩ := Bool.and_eq_true_iff.mp evaluated
      cases compiled : script.compile with
      | error problem =>
          rw [compiled] at compiles
          cases compiles
      | ok image =>
          refine ⟨script, image, rfl, compiled, ?_⟩
          rw [(ofSource_of_compile ⟨3, 1⟩ mistypedSource script image read compiled).1,
            of_decide_eq_true refused]
          rfl

end Program

end Cohort
