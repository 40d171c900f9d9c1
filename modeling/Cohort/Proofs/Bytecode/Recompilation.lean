import Cohort.Proofs.Bytecode.RoundTrip

/-!
# Compiling what was loaded

The script of a loaded program is compiled to the image that the program came from, up to the
version, and no two scripts are compiled to the same image.
-/

namespace Cohort

namespace Script

theorem program_injective {first second : Script} (same : first.program = second.program) :
    first = second := by
  have restored := script?_program first
  rw [same, script?_program] at restored
  exact (Option.some.inj restored).symm

/-- An image is compiled from one script only, whether or not it can be loaded. -/
theorem compile_eq_ok_iff_eq (script : Script) (image : List UInt8)
    (compiled : script.compile = .ok image) (other : Script) :
    other.compile = .ok image ↔ other = script := by
  constructor
  · intro otherCompiled
    obtain ⟨fits, rfl⟩ := compile_eq_ok_iff.mp compiled
    obtain ⟨otherFits, same⟩ := compile_eq_ok_iff.mp otherCompiled
    exact program_injective (Program.eq_of_layout_eq otherFits fits same.symm)
  · rintro rfl
    exact compiled

/-- A script that cannot be loaded: a name is declared twice, another one not at all, and the
whole condition is no block. -/
def unloadableSample : Script :=
  ⟨"g", [⟨"s", .species⟩, ⟨"s", .species⟩], .test .bornAfter (.reference "t")⟩

theorem compile_unloadableSample_iff : ∃ image, unloadableSample.compile = .ok image ∧
    ∀ other : Script, other.compile = .ok image ↔ other = unloadableSample := by
  have compiled : ∃ image, unloadableSample.compile = .ok image := ⟨_, rfl⟩
  obtain ⟨image, compiled⟩ := compiled
  exact ⟨image, compiled, compile_eq_ok_iff_eq unloadableSample image compiled⟩

end Script

theorem Parameter.parameter_of_declaration?_eq_some {parameter : Parameter}
    {declaration : Declaration} (found : parameter.declaration? = some declaration) :
    declaration.parameter = parameter := by
  obtain ⟨name, type⟩ := parameter
  cases type with
  | int32 =>
      cases found
      rfl
  | date => cases found
  | reference => cases found

theorem map_parameter_of_mapM_declaration? {parameters : List Parameter}
    {declarations : List Declaration}
    (found : parameters.mapM Parameter.declaration? = some declarations) :
    declarations.map Declaration.parameter = parameters :=
  Condition.map_of_mapM (fun _ _ _ => Parameter.parameter_of_declaration?_eq_some) found

namespace Program

theorem midnight_of_traverse {value : Value Timestamp} {original : Value Date}
    (fits : value.Fits) (found : value.traverse Timestamp.midnightDate? = some original) :
    original.map Date.midnight = value := by
  apply Value.map_of_traverse _ found
  rintro moment day rfl restored
  exact Timestamp.midnight_of_midnightDate?_eq_some (Timestamp.OnTick.inUtc fits) restored

/-- A program that fits the format is that of its script, but for the version. -/
theorem program_of_script?_eq_some {program : Program} {script : Script} (fits : program.Fits)
    (restored : program.script? = some script) :
    script.program = { program with version := bytecodeVersion } := by
  obtain ⟨name, declared, dated⟩ := script?_eq_some_iff.mp restored
  have parameters := map_parameter_of_mapM_declaration? declared
  have conditions := Condition.map_of_traverse
    (fun leaf membership original => midnight_of_traverse (fits.root.values leaf membership))
    dated
  simp only [Script.program, name, parameters, conditions]

theorem Fits.withVersion {program : Program} (fits : program.Fits) (version : UInt16) :
    Fits { program with version := version } :=
  ⟨fits.name, fits.parameterCount, fits.parameterNames, fits.root, fits.body⟩

theorem WellFormed.withVersion {limits other : Limits} {program : Program} {version : UInt16}
    (wellFormed : program.WellFormed limits) (sameDepth : other.maxDepth = limits.maxDepth)
    (supported : version ≤ min other.maxVersion 1) :
    WellFormed other { program with version := version } :=
  ⟨supported, wellFormed.distinctNames, wellFormed.noReferenceTypes, wellFormed.block,
    sameDepth ▸ wellFormed.depth, wellFormed.operands⟩

/-- The version takes the first two bytes of an image, and nothing else depends on it. -/
theorem layout_withVersion (program : Program) (version : UInt16) :
    layout { program with version := version } =
      bigEndian 2 version.toNat ++ program.layout.drop 2 := by
  unfold layout
  rw [List.drop_left' (length_bigEndian _ _)]
  rfl

theorem load_withVersion {limits other : Limits} {image : List UInt8} {program : Program}
    (loaded : load limits image = .ok program) (sameDepth : other.maxDepth = limits.maxDepth)
    (version : UInt16) (supported : version ≤ min other.maxVersion 1) :
    load other (bigEndian 2 version.toNat ++ image.drop 2) =
      .ok { program with version := version } := by
  obtain ⟨rfl, fits, wellFormed⟩ := layout_of_load loaded
  rw [← layout_withVersion]
  exact load_layout (fits.withVersion version) (wellFormed.withVersion sameDepth supported)

theorem version_eq_one_or_zero {limits : Limits} {program : Program}
    (wellFormed : program.WellFormed limits) : program.version = 1 ∨ program.version = 0 := by
  have known : program.version ≤ 1 := UInt16.le_trans wellFormed.version Std.min_le_right
  rcases UInt16.lt_or_eq_of_le known with older | newest
  · exact .inr (UInt16.lt_one_iff.mp older)
  · exact .inl newest

/-- The script of a loaded program is compiled, without fail, to the image that the program came
from, except that the version is always 1: an image of version 0, which is loaded as well, differs
in these two bytes and in no other.  Loading the result gives the same program again. -/
theorem compile_script?_of_load (limits : Limits) (image : List UInt8) (program : Program)
    (script : Script) (loaded : load limits image = .ok program)
    (restored : program.script? = some script) :
    ∃ recompiled, script.compile = .ok recompiled ∧
      recompiled = bigEndian 2 1 ++ image.drop 2 ∧ recompiled.length = image.length ∧
      (program.version = 1 ∧ image = recompiled ∨
        program.version = 0 ∧ image = bigEndian 2 0 ++ recompiled.drop 2) ∧
      load limits (bigEndian 2 0 ++ recompiled.drop 2) = .ok { program with version := 0 } ∧
      ∀ other : Limits, 1 ≤ other.maxVersion → other.maxDepth = limits.maxDepth →
        load other recompiled = .ok { program with version := 1 } := by
  obtain ⟨same, fits, wellFormed⟩ := layout_of_load loaded
  have versioned : ∀ version, program.version = version →
      image = bigEndian 2 version.toNat ++ image.drop 2 := by
    rintro _ rfl
    rw [same]
    exact layout_withVersion program program.version
  have recompiled : script.program.layout = bigEndian 2 1 ++ image.drop 2 := by
    rw [program_of_script?_eq_some fits restored, same]
    exact layout_withVersion program bytecodeVersion
  have unchanged : script.program.layout.drop 2 = image.drop 2 := by
    rw [recompiled, List.drop_left' (length_bigEndian _ _)]
  have compiled : script.compile = .ok script.program.layout := by
    refine Script.compile_eq_ok_iff.mpr ⟨?_, rfl⟩
    rw [program_of_script?_eq_some fits restored]
    exact fits.withVersion bytecodeVersion
  refine ⟨script.program.layout, compiled, recompiled, ?_, ?_, ?_, ?_⟩
  · rw [recompiled, versioned program.version rfl]
    simp
  · rw [unchanged, recompiled]
    rcases version_eq_one_or_zero wellFormed with newer | older
    · exact .inl ⟨newer, versioned 1 newer⟩
    · exact .inr ⟨older, versioned 0 older⟩
  · rw [unchanged]
    exact load_withVersion loaded rfl 0 UInt16.zero_le
  · intro other supported sameDepth
    rw [recompiled]
    exact load_withVersion loaded sameDepth 1 (Script.one_le_min_one_iff.mpr supported)

/-- The image of `nestedSample` in version 0. -/
def oldSampleImage : List UInt8 :=
  [0, 0, 0, 0, 0, 33, 0, 1, 103, 0, 1, 2, 0, 1, 115, 1, 0, 2, 2, 1, 8, 215, 188, 170, 81, 219,
    64, 0, 1, 0, 2, 4, 0, 0, 1, 115, 1, 0, 0]

theorem compile_script?_oldSample : ∃ program, load ⟨3, 0⟩ oldSampleImage = .ok program ∧
    program.version = 0 ∧ program.script? = some Script.nestedSample ∧
    ∃ recompiled, Script.nestedSample.compile = .ok recompiled ∧ recompiled ≠ oldSampleImage ∧
      recompiled.drop 2 = oldSampleImage.drop 2 ∧
      load ⟨3, 1⟩ recompiled = .ok { program with version := 1 } := by
  have loaded : load ⟨3, 0⟩ oldSampleImage =
      .ok { Script.nestedSample.program with version := 0 } := by
    have compiled : Script.nestedSample.compile = .ok (0 :: 1 :: oldSampleImage.drop 2) := rfl
    have loadable : Script.nestedSample.Loadable ⟨3, 1⟩ :=
      Script.loadable_nestedSample ⟨3, 1⟩ (by decide) (by decide)
    have newer := Script.load_compile_of_loadable compiled loadable
    exact load_withVersion newer rfl 0 UInt16.zero_le
  have restored := Script.script?_program Script.nestedSample
  obtain ⟨recompiled, compiled, rfl, -, -, -, reloads⟩ :=
    compile_script?_of_load ⟨3, 0⟩ oldSampleImage _ Script.nestedSample loaded restored
  refine ⟨_, loaded, rfl, restored, _, compiled, by decide, rfl, ?_⟩
  exact reloads ⟨3, 1⟩ (UInt16.le_refl 1) rfl

end Program

end Cohort
