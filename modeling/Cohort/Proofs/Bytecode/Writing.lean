import Cohort.Proofs.Bytecode.Parts

/-!
# What writers write

A writer reports the first problem among its parts, and if there is none it adds exactly the
layout of them to the output.  A script is written as the layout of a program.
-/

namespace Cohort

namespace Output

@[simp]
theorem bytes_nil (output : Output) : output.bytes [] = output := by
  simp [bytes]

@[simp]
theorem bytes_bytes (output : Output) (first second : List UInt8) :
    (output.bytes first).bytes second = output.bytes (first ++ second) := by
  apply Array.toList_inj.mp
  simp [bytes]

theorem byte_eq_bytes (output : Output) (byte : UInt8) :
    output.byte byte = output.bytes [byte] := by
  simp [Output.byte, bytes]

@[simp]
theorem toList_bytes (output : Output) (added : List UInt8) :
    (output.bytes added).toList = output.toList ++ added := by
  simp [bytes]

/-- Whether a writer reports the first problem among the parts, and adds the given bytes if there
is none. -/
def Writes (write : Output → Except CompileError Output) (parts : List Part)
    (added : List UInt8) : Prop :=
  ∀ output, write output =
    (parts.findSome? Part.problem?).elim (.ok (output.bytes added)) .error

theorem writes_bytes (added : List UInt8) :
    Writes (fun output => .ok (output.bytes added)) [] added :=
  fun _ => rfl

theorem writes_bind {first second : Output → Except CompileError Output}
    {firstParts secondParts : List Part} {firstAdded secondAdded : List UInt8}
    (firstWrites : Writes first firstParts firstAdded)
    (secondWrites : Writes second secondParts secondAdded) :
    Writes (fun output => (first output).bind second) (firstParts ++ secondParts)
      (firstAdded ++ secondAdded) := by
  intro output
  change Except.bind (first output) second = _
  rw [firstWrites, List.findSome?_append]
  cases firstParts.findSome? Part.problem? with
  | some problem => rfl
  | none =>
      change second (output.bytes firstAdded) = _
      rw [secondWrites, bytes_bytes]
      rfl

theorem writes_byte {write : Output → Except CompileError Output} {parts : List Part}
    {added : List UInt8} (byte : UInt8) (writes : Writes write parts added) :
    Writes (fun output => write (output.byte byte)) parts (byte :: added) := by
  intro output
  change write (output.byte byte) = _
  rw [byte_eq_bytes, writes, bytes_bytes]
  rfl

theorem writes_part {write : Output → Except CompileError Output} {part : Part}
    {added : List UInt8}
    (reports : ∀ output,
      write output = part.problem?.elim (.ok (output.bytes added)) .error) :
    Writes write [part] added := by
  intro output
  rw [reports, List.findSome?_singleton]

theorem count_eq (output : Output) (count : Nat) (tooMany : CompileError) :
    output.count count tooMany =
      (if count ≤ 65535 then none else some tooMany).elim
        (.ok (output.bytes (bigEndian 2 count))) .error := by
  rw [Output.count]
  split <;> rfl

theorem writes_text (field : Field) (text : String) :
    Writes (fun output => output.text field text) [.text field text] (textLayout text) := by
  apply writes_part
  intro output
  change (if text.toList.all isAscii then _ else _) = _
  by_cases ascii : text.toList.all isAscii = true
  · have size := utf8ByteSize_of_ascii (all_isAscii_iff.mp ascii)
    rw [if_pos ascii, Part.problem?, if_pos ascii, size]
    change Except.bind (output.count text.toList.length _) _ = _
    rw [count_eq]
    by_cases short : text.toList.length ≤ 65535
    · rw [if_pos short]
      change Except.ok ((output.bytes _).bytes _) = _
      rw [bytes_bytes]
      rfl
    · rw [if_neg short]
      rfl
  · rw [if_neg ascii, Part.problem?, if_neg ascii]
    rfl

theorem writes_value (value : Value Date) :
    Writes (fun output => output.value value) value.parts
      (value.map Date.midnight).layout := by
  cases value with
  | reference name =>
      exact writes_byte ValueType.reference.byte (writes_text .parameterReference name)
  | species id =>
      exact writes_byte ValueType.int32.byte (writes_bytes _)
  | date day =>
      apply writes_part
      intro output
      unfold value Part.problem?
      dsimp only
      by_cases counted : 1 ≤ day.year
      · have onTick := Date.onTick_midnight_iff.mpr counted
        rw [Date.ticks?_eq_some_iff.mpr ⟨onTick, rfl⟩, if_pos counted]
        exact writes_byte ValueType.date.byte
          (writes_bytes (bigEndian 8 day.midnight.tickCount)) output
      · have uncounted : day.ticks? = none := by
          apply Option.eq_none_iff_forall_ne_some.mpr
          intro ticks found
          exact counted (Date.onTick_midnight_iff.mp (Date.ticks?_eq_some_iff.mp found).1)
        rw [uncounted, if_neg counted]
        rfl

theorem conditions_cons (output : Output) (child : Condition Date)
    (siblings : List (Condition Date)) :
    output.conditions (child :: siblings) =
      (output.condition child).bind fun output => output.conditions siblings := by
  rw [conditions]
  cases output.condition child <;> rfl

theorem writes_conditions {children : List (Condition Date)}
    (writes : ∀ child ∈ children, Writes (fun output => output.condition child) child.parts
      (child.map Date.midnight).layout) :
    Writes (fun output => output.conditions children) (children.flatMap Condition.parts)
      (children.flatMap fun child => (child.map Date.midnight).layout) := by
  induction children with
  | nil =>
      have nothing := writes_bytes []
      simpa [conditions] using nothing
  | cons child siblings inductionHypothesis =>
      rw [List.forall_mem_cons] at writes
      have both := writes_bind writes.1 (inductionHypothesis writes.2)
      intro output
      change output.conditions (child :: siblings) = _
      rw [conditions_cons, List.flatMap_cons, List.flatMap_cons]
      exact both output

theorem writes_condition (condition : Condition Date) :
    Writes (fun output => output.condition condition) condition.parts
      (condition.map Date.midnight).layout := by
  induction condition using Condition.induction with
  | test kind value =>
      exact writes_byte (Opcode.test kind).byte (writes_value value)
  | all children inductionHypothesis =>
      have counted : Writes
          (fun output => output.count children.length (.tooManyChildren children.length))
          [.childCount children.length] (bigEndian 2 children.length) :=
        writes_part fun output => count_eq output _ _
      have writes := writes_byte Opcode.all.byte
        (writes_bind counted (writes_conditions inductionHypothesis))
      intro output
      rw [Condition.map_all, Condition.parts_all, Condition.layout_all, List.length_map,
        List.flatMap_map]
      exact writes output

end Output

def Declaration.parameter (declaration : Declaration) : Parameter :=
  ⟨declaration.name, declaration.kind.valueType⟩

/-- The program that a script stands for: its dates are their starts in UTC. -/
def Script.program (script : Script) : Program :=
  ⟨bytecodeVersion, script.name, script.parameters.map Declaration.parameter,
    script.root.map Date.midnight⟩

namespace Output

theorem declarations_cons (output : Output) (declaration : Declaration)
    (later : List Declaration) :
    output.declarations (declaration :: later) =
      ((output.byte declaration.kind.valueType.byte).text .parameterName declaration.name).bind
        fun output => output.declarations later := by
  rw [declarations]
  cases (output.byte declaration.kind.valueType.byte).text .parameterName declaration.name <;> rfl

theorem writes_declarations (declarations : List Declaration) :
    Writes (fun output => output.declarations declarations)
      (declarations.map fun declaration => .text .parameterName declaration.name)
      (declarations.flatMap fun declaration => declaration.parameter.layout) := by
  induction declarations with
  | nil =>
      have nothing := writes_bytes []
      simpa [Output.declarations] using nothing
  | cons declaration later inductionHypothesis =>
      have head := writes_byte declaration.kind.valueType.byte
        (writes_text .parameterName declaration.name)
      have both := writes_bind head inductionHypothesis
      intro output
      change output.declarations (declaration :: later) = _
      rw [declarations_cons, List.map_cons, List.flatMap_cons]
      exact both output

end Output

namespace Script

theorem body_eq (script : Script) :
    script.body = script.problem?.elim (.ok script.program.body.toArray) .error := by
  have counted : Output.Writes
      (fun output =>
        output.count script.parameters.length (.tooManyParameters script.parameters.length))
      [.parameterCount script.parameters.length] (bigEndian 2 script.parameters.length) :=
    Output.writes_part fun output => Output.count_eq output _ _
  have writes := Output.writes_bind (Output.writes_text .scriptName script.name)
    (Output.writes_bind counted
      (Output.writes_bind (Output.writes_declarations script.parameters)
        (Output.writes_condition script.root))) #[]
  have bytes : Output.bytes #[] script.program.body = script.program.body.toArray := by
    apply Array.toList_inj.mp
    simp
  rw [← bytes, Program.body, Script.program, List.length_map, List.flatMap_map]
  exact writes

/-- What becomes of any script: its first problem is reported, the length of its body after those
of its parts, or else it is compiled to the layout of its program. -/
theorem compile_eq (script : Script) :
    script.compile = (script.problem?.or (if script.program.body.length ≤ 4294967295 then none
      else some (.bodyTooLong script.program.body.length))).elim (.ok script.program.layout)
        .error := by
  change Except.bind script.body _ = _
  rw [body_eq]
  cases script.problem? with
  | some problem => rfl
  | none =>
      change (if script.program.body.toArray.size ≤ 4294967295 then _ else _) = _
      rw [List.size_toArray, Option.none_or]
      by_cases small : script.program.body.length ≤ 4294967295
      · rw [if_pos small, if_pos small, Program.layout, ← List.append_assoc]
        rfl
      · rw [if_neg small, if_neg small]
        rfl

theorem fits_program_iff {script : Script} :
    script.program.Fits ↔
      script.Representable ∧ script.program.body.length ≤ 4294967295 := by
  constructor
  · rintro ⟨name, count, names, ⟨counts, values⟩, body⟩
    simp only [program, List.length_map, List.forall_mem_map, Condition.childCounts_map,
      Condition.tests_map] at name count names counts values
    refine ⟨⟨name, count, names, counts, ?_, ?_⟩, body⟩
    · intro kind reference membership
      exact values _ membership
    · intro kind day membership
      exact Date.onTick_midnight_iff.mp (values _ membership)
  · rintro ⟨⟨name, count, names, counts, references, dates⟩, body⟩
    refine ⟨name, ?_, List.forall_mem_map.mpr names, ⟨?_, ?_⟩, body⟩
    · rwa [program, List.length_map]
    · rwa [program, Condition.childCounts_map]
    · rw [program, Condition.tests_map, List.forall_mem_map]
      rintro ⟨kind, value⟩ membership
      cases value with
      | reference reference => exact references kind reference membership
      | date day => exact Date.onTick_midnight_iff.mpr (dates kind day membership)
      | species id => trivial

/-- A script is compiled if the format can hold its program, to the layout of that program. -/
theorem compile_eq_ok_iff {script : Script} {image : List UInt8} :
    script.compile = .ok image ↔ script.program.Fits ∧ image = script.program.layout := by
  rw [compile_eq, fits_program_iff, ← problem?_eq_none_iff]
  cases script.problem? with
  | some problem => simp
  | none =>
      by_cases small : script.program.body.length ≤ 4294967295
      · simp [small, eq_comm]
      · simp [small]

/-- A script whose body is not too long is compiled exactly if it is representable: to the version,
the length of what follows, and the body.  Otherwise the first part that the format cannot hold is
reported, whatever is wrong with later ones. -/
theorem compile_of_body_lt (script : Script) (small : script.program.body.length < 2 ^ 32) :
    ((∃ image, script.compile = .ok image) ↔ script.Representable) ∧
      (∀ image, script.compile = .ok image →
        image = [0, 1] ++ bigEndian 4 script.program.body.length ++ script.program.body) ∧
      ∀ problem, script.compile = .error problem ↔
        ∃ before part after, script.parts = before ++ part :: after ∧
          (∀ earlier ∈ before, earlier.problem? = none) ∧ part.problem? = some problem := by
  have fitsIn : script.program.body.length ≤ 4294967295 := Nat.le_of_lt_succ small
  refine ⟨?_, ?_, ?_⟩
  · constructor
    · rintro ⟨image, compiled⟩
      exact (fits_program_iff.mp (compile_eq_ok_iff.mp compiled).1).1
    · intro representable
      exact ⟨_, compile_eq_ok_iff.mpr ⟨fits_program_iff.mpr ⟨representable, fitsIn⟩, rfl⟩⟩
  · intro image compiled
    have version : bigEndian 2 bytecodeVersion.toNat = [0, 1] := by decide
    rw [(compile_eq_ok_iff.mp compiled).2, Program.layout, ← version, List.append_assoc]
    rfl
  · intro problem
    have found : script.compile = .error problem ↔ script.problem? = some problem := by
      rw [compile_eq, if_pos fitsIn, Option.or_none]
      cases script.problem? <;> simp
    rw [found, problem?, List.findSome?_eq_some_iff]
    constructor
    · rintro ⟨before, part, after, split, reported, passed⟩
      exact ⟨before, part, after, split, passed, reported⟩
    · rintro ⟨before, part, after, split, passed, reported⟩
      exact ⟨before, part, after, split, reported, passed⟩

/-- A script of which the format cannot hold a parameter's name, a date and a reference. -/
def unheldSample : Script :=
  ⟨"g", [⟨"s", .species⟩, ⟨"é", .species⟩],
    .all [.test .bornAfter (.date ⟨0, 1, by decide, by decide⟩),
      .test .speciesIs (.reference "ü")]⟩

theorem compile_unheldSample : unheldSample.program.body.length < 2 ^ 32 ∧
    ¬ unheldSample.Representable ∧ unheldSample.compile = .error (.nonAscii "é") := by
  have small : unheldSample.program.body.length < 2 ^ 32 := by decide
  have settled := compile_of_body_lt unheldSample small
  have refused : unheldSample.compile = .error (.nonAscii "é") := by
    refine (settled.2.2 _).mpr ⟨[.text .scriptName "g", .parameterCount 2,
      .text .parameterName "s"], .text .parameterName "é", unheldSample.root.parts, rfl, ?_, rfl⟩
    simp only [List.forall_mem_cons]
    exact ⟨rfl, rfl, rfl, List.forall_mem_nil _⟩
  refine ⟨small, ?_, refused⟩
  intro representable
  obtain ⟨image, compiled⟩ := settled.1.mpr representable
  rw [refused] at compiled
  contradiction

end Script

end Cohort
