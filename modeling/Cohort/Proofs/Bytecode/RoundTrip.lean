import Cohort.Proofs.Bytecode.Acceptance
import Cohort.Proofs.Bytecode.Writing

/-!
# Loading what was compiled

The image of a script is loaded exactly if the script is well typed and within the limits, and
the program that is loaded holds the whole script.
-/

namespace Cohort

/-- Whether a test of a script can have a value, where some names are declared: a date for the
date of birth, a number or a declared name for the species. -/
def Test.Allows (declared : List String) : Test → Value Date → Prop
  | .bornAfter, .date _ | .bornBefore, .date _ | .speciesIs, .species _ => True
  | .speciesIs, .reference name => name ∈ declared
  | .bornAfter, .reference _ | .bornAfter, .species _ => False
  | .bornBefore, .reference _ | .bornBefore, .species _ => False
  | .speciesIs, .date _ => False

/-- A script is found part by part. -/
theorem Program.script?_eq_some_iff {program : Program} {script : Script} :
    program.script? = some script ↔
      script.name = program.name ∧
        program.parameters.mapM Parameter.declaration? = some script.parameters ∧
          program.root.traverse Timestamp.midnightDate? = some script.root := by
  simp only [script?, Option.bind_eq_bind, Option.bind_eq_some_iff, Option.pure_def,
    Option.some.injEq]
  constructor
  · rintro ⟨declarations, declared, root, dated, rfl⟩
    exact ⟨rfl, declared, dated⟩
  · rintro ⟨name, declared, dated⟩
    refine ⟨script.parameters, declared, script.root, dated, ?_⟩
    rw [← name]

namespace Script

/-- Whether the image of a script can be loaded within the limits. -/
structure Loadable (limits : Limits) (script : Script) : Prop where
  version : 1 ≤ limits.maxVersion
  distinctNames : script.declaredNames.Nodup
  block : script.root.isBlock = true
  depth : script.root.depth ≤ limits.maxDepth
  operands : ∀ leaf ∈ script.root.tests, leaf.1.Allows script.declaredNames leaf.2

theorem map_name_program_parameters (script : Script) :
    script.program.parameters.map Parameter.name = script.declaredNames := by
  simp only [program, List.map_map]
  rfl

theorem exists_program_parameter_iff {script : Script} {name : String} {type : ValueType} :
    (∃ parameter ∈ script.program.parameters, parameter.name = name ∧ parameter.type = type) ↔
      name ∈ script.declaredNames ∧ type = .int32 := by
  constructor
  · rintro ⟨parameter, membership, rfl, rfl⟩
    obtain ⟨declaration, declared, rfl⟩ := List.mem_map.mp membership
    exact ⟨List.mem_map_of_mem declared, rfl⟩
  · rintro ⟨membership, rfl⟩
    obtain ⟨declaration, declared, rfl⟩ := List.mem_map.mp membership
    exact ⟨declaration.parameter, List.mem_map_of_mem declared, rfl, rfl⟩

theorem suits_map_midnight_iff {script : Script} {kind : Test} {value : Value Date} :
    (value.map Date.midnight).Suits script.program.parameters kind.operand ↔
      kind.Allows script.declaredNames value := by
  cases value with
  | reference name =>
      apply exists_program_parameter_iff.trans
      cases kind <;> simp [Test.Allows, Test.operand]
  | date day => cases kind <;> simp [Value.map, Value.Suits, Test.Allows, Test.operand]
  | species id => cases kind <;> simp [Value.map, Value.Suits, Test.Allows, Test.operand]

theorem one_le_min_one_iff {version : UInt16} : 1 ≤ min version 1 ↔ 1 ≤ version := by
  change 1 ≤ (if version ≤ 1 then version else 1) ↔ _
  split
  next => exact Iff.rfl
  next above => exact iff_of_true (UInt16.le_refl 1) (UInt16.le_of_lt (UInt16.not_le.mp above))

theorem wellFormed_program_iff {limits : Limits} {script : Script} :
    script.program.WellFormed limits ↔ script.Loadable limits := by
  constructor
  · rintro ⟨version, distinctNames, -, block, depth, operands⟩
    rw [map_name_program_parameters] at distinctNames
    refine ⟨one_le_min_one_iff.mp version, distinctNames, ?_, ?_, ?_⟩
    · simpa [program] using block
    · simpa [program] using depth
    · intro leaf membership
      apply suits_map_midnight_iff.mp
      apply operands (leaf.1, leaf.2.map Date.midnight)
      rw [program, Condition.tests_map]
      exact List.mem_map_of_mem membership
  · rintro ⟨version, distinctNames, block, depth, operands⟩
    refine ⟨one_le_min_one_iff.mpr version, ?_, ?_, ?_, ?_, ?_⟩
    · rwa [map_name_program_parameters]
    · intro parameter membership
      obtain ⟨declaration, declared, rfl⟩ := List.mem_map.mp membership
      exact ValueType.noConfusion
    · simpa [program] using block
    · simpa [program] using depth
    · intro leaf membership
      rw [program, Condition.tests_map] at membership
      obtain ⟨written, inScript, rfl⟩ := List.mem_map.mp membership
      apply suits_map_midnight_iff.mpr
      exact operands written inScript

theorem mapM_declaration?_parameter (declarations : List Declaration) :
    (declarations.map Declaration.parameter).mapM Parameter.declaration? = some declarations := by
  apply Condition.mapM_map_of_restored
  rintro ⟨name, kind⟩ -
  cases kind
  rfl

theorem script?_program (script : Script) : script.program.script? = some script := by
  have root := Condition.traverse_map Timestamp.midnightDate?_midnight script.root
  exact Program.script?_eq_some_iff.mpr ⟨rfl, mapM_declaration?_parameter script.parameters, root⟩

theorem program_of_load_compile {limits : Limits} {script : Script} {image : List UInt8}
    {program : Program} (compiled : script.compile = .ok image)
    (loaded : Program.load limits image = .ok program) :
    program = script.program ∧ script.Loadable limits := by
  obtain ⟨scriptFits, rfl⟩ := compile_eq_ok_iff.mp compiled
  obtain ⟨same, programFits, wellFormed⟩ := Program.layout_of_load loaded
  have equality := Program.eq_of_layout_eq programFits scriptFits same.symm
  subst equality
  exact ⟨rfl, wellFormed_program_iff.mp wellFormed⟩

theorem load_compile_of_loadable {limits : Limits} {script : Script} {image : List UInt8}
    (compiled : script.compile = .ok image) (loadable : script.Loadable limits) :
    Program.load limits image = .ok script.program := by
  obtain ⟨fits, rfl⟩ := compile_eq_ok_iff.mp compiled
  exact Program.load_layout fits (wellFormed_program_iff.mpr loadable)

/-- The image of a script is loaded exactly if the script is well typed and within the limits.
Nothing is lost: the program that is loaded holds the script. -/
theorem load_compile_iff (limits : Limits) (script : Script) (image : List UInt8)
    (compiled : script.compile = .ok image) :
    ((∃ program, Program.load limits image = .ok program) ↔ script.Loadable limits) ∧
      ∀ program, Program.load limits image = .ok program →
        program.version = 1 ∧ program.script? = some script := by
  constructor
  · constructor
    · rintro ⟨program, loaded⟩
      exact (program_of_load_compile compiled loaded).2
    · exact fun loadable => ⟨script.program, load_compile_of_loadable compiled loadable⟩
  · intro program loaded
    rw [(program_of_load_compile compiled loaded).1]
    exact ⟨rfl, script?_program script⟩

def nestedSample : Script :=
  ⟨"g", [⟨"s", .species⟩],
    .all [.test .bornAfter (.date ⟨2020, 60, by decide, by decide⟩),
      .all [.test .speciesIs (.reference "s"), .all []]]⟩

theorem loadable_nestedSample (limits : Limits) (version : 1 ≤ limits.maxVersion)
    (depth : 3 ≤ limits.maxDepth) : nestedSample.Loadable limits := by
  refine ⟨version, by decide, rfl, depth, ?_⟩
  simp [nestedSample, Test.Allows, declaredNames]

theorem load_compile_nestedSample : ∃ image, nestedSample.compile = .ok image ∧
    ∃ program, Program.load .standard image = .ok program ∧
      program.version = 1 ∧ program.script? = some nestedSample := by
  have compiled : ∃ image, nestedSample.compile = .ok image := ⟨_, rfl⟩
  obtain ⟨image, compiled⟩ := compiled
  have loading := load_compile_iff .standard nestedSample image compiled
  have loadable : nestedSample.Loadable .standard :=
    loadable_nestedSample .standard (by decide) (by decide)
  obtain ⟨program, loaded⟩ := loading.1.mpr loadable
  exact ⟨image, compiled, program, loaded, loading.2 program loaded⟩

end Script

end Cohort
