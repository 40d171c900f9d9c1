import Cohort.Program.FromSource
import Cohort.Proofs.Bytecode.RoundTrip
import Cohort.Proofs.Program.Deciding
import Cohort.Proofs.Script.Recognition

/-!
# The meaning of source

What a script says of an animal, read off its tree without any bytecode, and that a program from
source says the same.
-/

namespace Cohort

/-- What is wrong with the binding of a declared name, if anything is. -/
def Declaration.problem? (bindings : Bindings) (declaration : Declaration) : Option MatchError :=
  match bindings[declaration.name]? with
  | none => some (.missingBinding declaration.name .int32)
  | some (.date _) => some (.bindingType declaration.name .int32 .date)
  | some (.int32 _) => none

namespace Test

/-- The tests of scripts from source that can be loaded. -/
inductive IsLoadable (declared : List String) : Test → Value Date → Prop where
  | bornAfter (day : Date) : IsLoadable declared .bornAfter (.date day)
  | bornBefore (day : Date) : IsLoadable declared .bornBefore (.date day)
  | speciesIs {name : String} : name ∈ declared →
      IsLoadable declared .speciesIs (.reference name)

/-- What a test says of a subject.  No other combination of test and value can be loaded. -/
def meaning (subject : Subject) (bindings : Bindings) :
    Test → Value Date → Except FactFailure Bool
  | .bornAfter, .date day => do
      let birth ← subject.birth
      return day.midnight.instant < birth.instant
  | .bornBefore, .date day => do
      let birth ← subject.birth
      return birth.instant < day.midnight.instant
  | .speciesIs, .reference name => .ok (bindings[name]? = some (.int32 subject.species))
  | _, _ => .ok false

end Test

def scanMeanings (subject : Subject) (bindings : Bindings) (leaves : List (Test × Value Date)) :
    Except FactFailure Bool :=
  leaves.allM fun leaf => leaf.1.meaning subject bindings leaf.2

/-- What a script says of a subject: first the declared names are checked in order, then the tests
are decided from left to right, up to the first that fails. -/
def Script.interpret (script : Script) (subject : Subject) (bindings : Bindings) :
    Except MatchError Bool :=
  match script.parameters.findSome? (·.problem? bindings) with
  | some problem => .error problem
  | none => (scanMeanings subject bindings script.root.tests).mapError .fact

theorem Declaration.problem?_parameter (bindings : Bindings) (declaration : Declaration) :
    declaration.parameter.problem? bindings = declaration.problem? bindings := by
  obtain ⟨name, kind⟩ := declaration
  cases kind
  rw [Parameter.problem?, problem?]
  dsimp only [parameter]
  cases bindings[name]? with
  | none => rfl
  | some bound => cases bound <;> rfl

theorem findSome?_problem?_parameters (bindings : Bindings) (declarations : List Declaration) :
    (declarations.map Declaration.parameter).findSome? (·.problem? bindings) =
      declarations.findSome? (·.problem? bindings) := by
  rw [List.findSome?_map]
  simp only [Function.comp_def, Declaration.problem?_parameter]

theorem exists_int32_of_problem?_none {bindings : Bindings} {script : Script} {name : String}
    (fine : script.parameters.findSome? (·.problem? bindings) = none)
    (declared : name ∈ script.declaredNames) :
    ∃ number, bindings[name]? = some (.int32 number) := by
  obtain ⟨declaration, membership, rfl⟩ := List.mem_map.mp declared
  have fineHere := List.findSome?_eq_none_iff.mp fine declaration membership
  unfold Declaration.problem? at fineHere
  split at fineHere
  next => contradiction
  next => contradiction
  next number found => exact ⟨number, found⟩

theorem Test.verdict_map_midnight {subject : Subject} {bindings : Bindings}
    {declared : List String} {kind : Test} {value : Value Date}
    (loadable : kind.IsLoadable declared value)
    (bound : ∀ name ∈ declared, ∃ number, bindings[name]? = some (.int32 number)) :
    kind.verdict subject bindings (value.map Date.midnight) =
      (kind.meaning subject bindings value).mapError .fact := by
  cases loadable with
  | bornAfter day =>
      have found : Value.bound? bindings (.date day.midnight) = some (.date day.midnight) := rfl
      exact verdict_eq_answer found rfl
  | bornBefore day =>
      have found : Value.bound? bindings (.date day.midnight) = some (.date day.midnight) := rfl
      exact verdict_eq_answer found rfl
  | @speciesIs name membership =>
      obtain ⟨number, found⟩ := bound name membership
      have answered : answer subject .speciesIs (Value.bound? bindings (.reference name)) =
          meaning subject bindings .speciesIs (.reference name) := by
        simp only [Value.bound?, answer, meaning, found]
        congr 1
        rw [decide_eq_decide, Option.some.injEq, Bound.int32.injEq]
        exact eq_comm
      rw [← answered]
      exact verdict_eq_answer found rfl

theorem scan_map_midnight {subject : Subject} {bindings : Bindings} {declared : List String}
    {leaves : List (Test × Value Date)}
    (loadable : ∀ leaf ∈ leaves, leaf.1.IsLoadable declared leaf.2)
    (bound : ∀ name ∈ declared, ∃ number, bindings[name]? = some (.int32 number)) :
    Condition.scan subject bindings (leaves.map fun leaf => (leaf.1, leaf.2.map Date.midnight)) =
      (scanMeanings subject bindings leaves).mapError .fact := by
  rw [Condition.scan, allM_map]
  exact allM_mapError fun leaf membership =>
    Test.verdict_map_midnight (loadable leaf membership) bound

mutual

theorem DerivesCondition.species_not_mem {tokens : List Token} {condition : Condition Date}
    (derives : DerivesCondition tokens condition) (kind : Test) (id : Int32) :
    (kind, Value.species id) ∉ condition.tests := by
  cases derives with
  | test derivesTest derivesValue semicolon =>
      rw [Condition.tests_test, List.mem_singleton]
      rintro ⟨rfl, rfl⟩
      cases derivesValue
  | all word opening derivesBody closing =>
      rw [Condition.tests_all]
      exact derivesBody.species_not_mem kind id

theorem DerivesConditions.species_not_mem {tokens : List Token} {children : List (Condition Date)}
    (derives : DerivesConditions tokens children) (kind : Test) (id : Int32) :
    (kind, Value.species id) ∉ children.flatMap Condition.tests := by
  cases derives with
  | nil => exact List.not_mem_nil
  | cons derivesChild derivesSiblings =>
      rw [List.flatMap_cons, List.mem_append]
      rintro (inChild | inSiblings)
      · exact derivesChild.species_not_mem kind id inChild
      · exact derivesSiblings.species_not_mem kind id inSiblings

end

namespace Script

theorem species_not_mem_of_ofSource {source : String} {maxDepth : Nat} {script : Script}
    (read : ofSource source maxDepth = .ok script) (kind : Test) (id : Int32) :
    (kind, Value.species id) ∉ script.root.tests := by
  have derives := (parse_source_eq_ok_iff.mp read).1
  generalize sentence _ = tokens at derives
  obtain ⟨-, -, -, -, -, -, routine⟩ := derives
  obtain ⟨-, derivesRoot, -⟩ := routine
  exact derivesRoot.species_not_mem kind id

theorem isLoadable_of_ofSource {source : String} {limits : Limits} {script : Script}
    (read : ofSource source limits.maxDepth = .ok script) (loadable : script.Loadable limits) :
    ∀ leaf ∈ script.root.tests, leaf.1.IsLoadable script.declaredNames leaf.2 := by
  rintro ⟨kind, value⟩ membership
  have allowed := loadable.operands _ membership
  cases value with
  | species id => exact absurd membership (species_not_mem_of_ofSource read kind id)
  | date day =>
      cases kind with
      | bornAfter => exact .bornAfter day
      | bornBefore => exact .bornBefore day
      | speciesIs => contradiction
  | reference name =>
      cases kind with
      | bornAfter => contradiction
      | bornBefore => contradiction
      | speciesIs => exact .speciesIs allowed

/-- The program of a script says what the script says. -/
theorem admits_program {script : Script}
    (loadable : ∀ leaf ∈ script.root.tests, leaf.1.IsLoadable script.declaredNames leaf.2)
    (subject : Subject) (bindings : Bindings) :
    script.program.admits subject bindings = script.interpret subject bindings := by
  rw [Program.admits_eq_scan, Bindings.check_eq_findSome?, interpret]
  simp only [program, Condition.tests_map, findSome?_problem?_parameters]
  cases fine : script.parameters.findSome? (·.problem? bindings) with
  | some problem => rfl
  | none =>
      exact scan_map_midnight loadable fun name declared =>
        exists_int32_of_problem?_none fine declared

end Script

namespace Program

theorem ofSource_eq_ok_iff {limits : Limits} {source : String} {program : Program} :
    ofSource limits source = .ok program ↔
      ∃ script image, Script.ofSource source limits.maxDepth = .ok script ∧
        script.compile = .ok image ∧ load limits image = .ok program := by
  unfold ofSource
  constructor
  · intro loaded
    split at loaded
    next => contradiction
    next script read =>
      split at loaded
      next => contradiction
      next image compiled =>
        split at loaded
        next => contradiction
        next found loadedImage =>
          rw [Except.ok.inj loaded] at loadedImage
          exact ⟨script, image, read, compiled, loadedImage⟩
  · rintro ⟨script, image, read, compiled, loaded⟩
    simp only [read, compiled, loaded]

/-- A program from source decides exactly what its script says: every stage between the text and
the answer keeps the meaning. -/
theorem admits_ofSource (limits : Limits) (source : String) (program : Program)
    (loaded : ofSource limits source = .ok program) :
    ∃ script, Script.ofSource source limits.maxDepth = .ok script ∧
      (∀ leaf ∈ script.root.tests, leaf.1.IsLoadable script.declaredNames leaf.2) ∧
      ∀ subject bindings,
        program.admits subject bindings = script.interpret subject bindings := by
  obtain ⟨script, image, read, compiled, loadedImage⟩ := ofSource_eq_ok_iff.mp loaded
  obtain ⟨rfl, loadable⟩ := Script.program_of_load_compile compiled loadedImage
  have tests := Script.isLoadable_of_ofSource read loadable
  exact ⟨script, read, tests, Script.admits_program tests⟩

def sampleSource : String :=
  "NAME g PARAMETERS SPECIES s END ROUTINE AND \x7b BORN AFTER DATE:29/02/2020; " ++
    "AND \x7b SPECIES IS PARAM:s; \x7d \x7d END"

theorem admits_sampleSource : ∃ program, ofSource .standard sampleSource = .ok program ∧
    ∃ script, Script.ofSource sampleSource Limits.standard.maxDepth = .ok script ∧
      (∀ leaf ∈ script.root.tests, leaf.1.IsLoadable script.declaredNames leaf.2) ∧
      ∀ subject bindings,
        program.admits subject bindings = script.interpret subject bindings := by
  have accepted : (ofSource .standard sampleSource).toBool = true := by decide +kernel
  cases loaded : ofSource .standard sampleSource with
  | error problem =>
      rw [loaded] at accepted
      contradiction
  | ok program => exact ⟨program, rfl, admits_ofSource .standard sampleSource program loaded⟩

end Program

end Cohort
