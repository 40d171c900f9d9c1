import Cohort.Proofs.Bytecode.Acceptance

/-!
# The first fault of an image

An image may lay out a program that fits the format but cannot be loaded.  Its faults are read
off the program, and loading reports the first of them, in the order of the image.
-/

namespace Cohort

variable {α β : Type}

/-- What is wrong with the value of a test, if anything is. -/
def Value.fault? (declared : List Parameter) (test : Test) : Value Timestamp → Option LoadError
  | .reference name =>
      match declared.find? (·.name == name) with
      | none => some (.unknownParameter (.test test) name)
      | some parameter =>
          if parameter.type = test.operand then none
          else some (.typeMismatch (.test test) test.operand parameter.type)
  | .date _ =>
      if test.operand = .date then none
      else some (.typeMismatch (.test test) test.operand .date)
  | .species _ =>
      if test.operand = .int32 then none
      else some (.typeMismatch (.test test) test.operand .int32)

/-- The first fault in a condition, where so many levels are left of the limit. -/
def Condition.fault? (declared : List Parameter) (limit : Nat) :
    (levels : Nat) → Condition Timestamp → Option LoadError
  | 0, _ => some (.nestingTooDeep limit)
  | levels + 1, .all children => children.findSome? (fault? declared limit levels)
  | _ + 1, .test kind value => value.fault? declared kind

/-- What is wrong with a parameter that follows others, if anything is. -/
def Parameter.fault? (declared : List Parameter) (parameter : Parameter) : Option LoadError :=
  if parameter.type = .reference then
    some (.invalidParameterType parameter.name parameter.type)
  else if declared.any (·.name == parameter.name) then
    some (.duplicateParameter parameter.name)
  else
    none

/-- The first fault of parameters that follow others, the latest of these first. -/
def Parameter.firstFault? (declared : List Parameter) : List Parameter → Option LoadError
  | [] => none
  | parameter :: later => (parameter.fault? declared).or (firstFault? (parameter :: declared) later)

/-- The first fault of a program: its version, its parameters, its tests and their nesting, and
at last whether all of it is a block. -/
def Program.fault? (limits : Limits) (program : Program) : Option LoadError :=
  if limits.supportedVersion < program.version then
    some (.unsupportedVersion program.version limits.supportedVersion)
  else
    (Parameter.firstFault? [] program.parameters).or <|
      (program.root.fault? program.parameters limits.maxDepth limits.maxDepth).or <|
        if program.root.isBlock then none else some (.rootNotBlock program.root.opcode)

namespace Reader

theorem bind_of_eq_ok {read : Reader α} {next : α → Reader β} {cursor middle : Cursor} {value : α}
    (found : read cursor = .ok (value, middle)) : (read >>= next) cursor = next value middle := by
  change Except.bind (read cursor) (fun step => next step.1 step.2) = _
  rw [found]
  rfl

/-- What follows a reader is reached unless the reader reports a fault. -/
theorem bind_of_eq_elim {read : Reader α} {next : α → Reader β} {cursor middle : Cursor}
    {value : α} {fault : Option LoadError}
    (found : read cursor = fault.elim (.ok (value, middle)) .error) :
    (read >>= next) cursor = fault.elim (next value middle) .error := by
  cases fault with
  | none => exact bind_of_eq_ok found
  | some problem =>
      change Except.bind (read cursor) (fun step => next step.1 step.2) = _
      rw [found]
      rfl

/-- What has been read over a valid layout is handed on. -/
theorem Reads.bind {read : Reader α} {layout : α → List UInt8} {valid : α → Prop}
    (reads : Reads read layout valid) {value : α} (isValid : valid value) {cursor middle : Cursor}
    (passes : cursor.Passes (layout value) middle) (next : α → Reader β) :
    (read >>= next) cursor = next value middle :=
  bind_of_eq_ok ((reads cursor value middle).mpr ⟨isValid, passes⟩)

/-- A reader that passes over the layout of whatever fits and has no fault, and reports the fault
if there is one. -/
def Reports (read : Reader α) (layout : α → List UInt8) (fits : α → Prop)
    (fault? : α → Option LoadError) : Prop :=
  ∀ result, fits result → ∀ cursor after : Cursor, cursor.Passes (layout result) after →
    read cursor = (fault? result).elim (.ok (result, after)) .error

theorem reports_value (declared : List Parameter) (test : Test) :
    Reports (value declared test) Value.layout Value.Fits (Value.fault? declared test) := by
  intro result fits cursor after passes
  cases result with
  | reference name =>
      obtain ⟨start, passesType, passesName⟩ := Cursor.passes_cons_iff.mp passes
      rw [value, reads_valueType.bind trivial passesType]
      dsimp only
      rw [(reads_text .parameterReference).bind fits passesName, Value.fault?]
      cases declared.find? (·.name == name) with
      | none => rfl
      | some parameter =>
          by_cases typed : parameter.type = test.operand
          · simp only [if_pos typed]
            rfl
          · simp only [if_neg typed]
            rfl
  | date timestamp =>
      obtain ⟨start, passesType, passesTicks⟩ := Cursor.passes_cons_iff.mp passes
      rw [value, reads_valueType.bind trivial passesType]
      dsimp only
      by_cases typed : test.operand = .date
      · have bound : Timestamp.lastTick < Nat.pow 256 8 := by decide
        have small := Nat.lt_of_le_of_lt (Timestamp.OnTick.tickCount_le fits) bound
        rw [if_pos typed, (reads_number .dateLiteral 8).bind small passesTicks,
          Timestamp.ofTicks?_eq_some_iff.mpr ⟨fits, rfl⟩, Value.fault?, if_pos typed]
        rfl
      · rw [if_neg typed, Value.fault?, if_neg typed]
        rfl
  | species id =>
      obtain ⟨start, passesType, passesNumber⟩ := Cursor.passes_cons_iff.mp passes
      rw [value, reads_valueType.bind trivial passesType]
      dsimp only
      by_cases typed : test.operand = .int32
      · rw [if_pos typed, (reads_number .intLiteral 4).bind (UInt32.toNat_lt _) passesNumber,
          UInt32.ofNat_toNat, Int32.toInt32_toUInt32, Value.fault?, if_pos typed]
        rfl
      · rw [if_neg typed, Value.fault?, if_neg typed]
        rfl

/-- Of several results the first that has a fault is reported. -/
theorem times_of_reports {read : Reader α} {layout : α → List UInt8} {fits : α → Prop}
    {fault? : α → Option LoadError} (reports : Reports read layout fits fault?) {items : List α}
    (allFit : ∀ item ∈ items, fits item) (results : List α) {cursor after : Cursor}
    (passes : cursor.Passes (items.flatMap layout) after) :
    times read items.length results cursor =
      (items.findSome? fault?).elim (.ok (results.reverse ++ items, after)) .error := by
  induction items generalizing results cursor with
  | nil =>
      obtain rfl := Cursor.passes_nil_iff.mp passes
      rw [List.append_nil]
      rfl
  | cons item items inductionHypothesis =>
      rw [List.forall_mem_cons] at allFit
      obtain ⟨middle, passesItem, passesRest⟩ := Cursor.passes_append_iff.mp passes
      rw [List.length_cons, times_succ, List.findSome?_cons,
        bind_of_eq_elim (reports item allFit.1 cursor middle passesItem),
        inductionHypothesis allFit.2 (item :: results) passesRest, List.reverse_cons,
        List.append_assoc, List.singleton_append]
      cases fault? item <;> rfl

theorem reports_condition (declared : List Parameter) (limit levels : Nat) :
    Reports (condition declared limit levels) Condition.layout Condition.Fits
      (Condition.fault? declared limit levels) := by
  -- As in the reader, the children of a block have one level less.
  induction levels with
  | zero =>
      intro result fits cursor after passes
      rfl
  | succ levels inductionHypothesis =>
      intro result fits cursor after passes
      rw [condition]
      cases result with
      | all children =>
          rw [Condition.layout_all] at passes
          rw [Condition.fits_all_iff] at fits
          obtain ⟨start, passesOpcode, passesRest⟩ := Cursor.passes_cons_iff.mp passes
          obtain ⟨middle, passesCount, passesChildren⟩ := Cursor.passes_append_iff.mp passesRest
          have read := times_of_reports inductionHypothesis fits.2 [] passesChildren
          rw [bind_of_eq_ok (offset_eq_ok_iff.mpr ⟨rfl, rfl⟩),
            (reads_byte .opcode).bind trivial passesOpcode, Opcode.ofByte?_byte]
          dsimp only
          rw [(reads_number .childCount 2).bind (Nat.lt_succ_of_le fits.1) passesCount,
            bind_of_eq_elim read, Condition.fault?]
          rfl
      | test kind value =>
          rw [Condition.fits_test_iff] at fits
          obtain ⟨start, passesOpcode, passesValue⟩ := Cursor.passes_cons_iff.mp passes
          have read := reports_value declared kind value fits start after passesValue
          rw [bind_of_eq_ok (offset_eq_ok_iff.mpr ⟨rfl, rfl⟩),
            (reads_byte .opcode).bind trivial passesOpcode, Opcode.ofByte?_byte]
          dsimp only
          rw [bind_of_eq_elim read, Condition.fault?]
          rfl

theorem parameter_of_passes {declared : List Parameter} {result : Parameter}
    (storable : IsStorable result.name) {cursor after : Cursor}
    (passes : cursor.Passes result.layout after) :
    parameter declared cursor = (result.fault? declared).elim (.ok (result, after)) .error := by
  obtain ⟨start, passesType, passesName⟩ := Cursor.passes_cons_iff.mp passes
  rw [parameter, reads_valueType.bind trivial passesType,
    (reads_text .parameterName).bind storable passesName, Parameter.fault?]
  by_cases reference : result.type = .reference
  · rw [if_pos reference, if_pos reference]
    rfl
  · rw [if_neg reference, if_neg reference]
    by_cases repeated : declared.any (·.name == result.name) = true
    · rw [if_pos repeated, if_pos repeated]
      rfl
    · rw [if_neg repeated, if_neg repeated]
      rfl

theorem parameters_of_passes {items : List Parameter}
    (storable : ∀ item ∈ items, IsStorable item.name) (declared : List Parameter)
    {cursor after : Cursor} (passes : cursor.Passes (items.flatMap Parameter.layout) after) :
    parameters items.length declared cursor =
      (Parameter.firstFault? declared items).elim (.ok (declared.reverse ++ items, after))
        .error := by
  induction items generalizing declared cursor with
  | nil =>
      obtain rfl := Cursor.passes_nil_iff.mp passes
      rw [List.append_nil]
      rfl
  | cons item items inductionHypothesis =>
      rw [List.forall_mem_cons] at storable
      obtain ⟨middle, passesItem, passesRest⟩ := Cursor.passes_append_iff.mp passes
      rw [List.length_cons, parameters_succ, Parameter.firstFault?,
        bind_of_eq_elim (parameter_of_passes storable.1 passesItem),
        inductionHypothesis storable.2 (item :: declared) passesRest, List.reverse_cons,
        List.append_assoc, List.singleton_append]
      cases item.fault? declared <;> rfl

theorem program_of_fits {limits : Limits} {result : Program} (fits : result.Fits) :
    ∃ after, program limits ⟨result.layout, 0⟩ =
      (result.fault? limits).elim (.ok (result, after)) .error := by
  let finish : Cursor := ⟨[], result.layout.length⟩
  have passesImage : (⟨result.layout, 0⟩ : Cursor).Passes result.layout finish :=
    ⟨(List.append_nil _).symm, (Nat.zero_add _).symm⟩
  obtain ⟨afterVersion, passesVersion, passesRest⟩ := Cursor.passes_append_iff.mp passesImage
  obtain ⟨afterLength, passesLength, passesBody⟩ := Cursor.passes_append_iff.mp passesRest
  obtain ⟨afterName, passesName, afterCount, passesCount, afterParameters, passesParameters,
    passesRoot⟩ := passes_body.mp passesBody
  have readParameters := parameters_of_passes fits.parameterNames [] passesParameters
  have readRoot := reports_condition result.parameters limits.maxDepth limits.maxDepth
    result.root fits.root afterParameters finish passesRoot
  have bodyLength : result.body.length = afterLength.rest.length := by
    rw [passesBody.rest, List.append_nil]
  refine ⟨finish, ?_⟩
  rw [program, (reads_number .version 2).bind (UInt16.toNat_lt _) passesVersion,
    UInt16.ofNat_toNat, Program.fault?]
  by_cases tooNew : limits.supportedVersion < result.version
  · rw [if_pos tooNew, if_pos tooNew]
    rfl
  · rw [if_neg tooNew, if_neg tooNew]
    dsimp only
    rw [(reads_number .length 4).bind (Nat.lt_succ_of_le fits.body) passesLength,
      bind_of_eq_ok (get_eq_ok_iff.mpr ⟨rfl, rfl⟩), if_neg (not_not_intro bodyLength),
      (reads_text .scriptName).bind fits.name passesName,
      (reads_number .parameterCount 2).bind (Nat.lt_succ_of_le fits.parameterCount) passesCount,
      bind_of_eq_elim readParameters, List.reverse_nil, List.nil_append, bind_of_eq_elim readRoot]
    cases Parameter.firstFault? [] result.parameters with
    | some problem => rfl
    | none =>
        cases result.root.fault? result.parameters limits.maxDepth limits.maxDepth with
        | some problem => rfl
        | none =>
            cases result.root.isBlock with
            | false => rfl
            | true => rfl

end Reader

/-- Loading the image of a program that fits the format reports the first fault of the program,
and gives the program back if it has none. -/
theorem Program.load_layout_eq {limits : Limits} {program : Program} (fits : program.Fits) :
    load limits program.layout = (program.fault? limits).elim (.ok program) .error := by
  obtain ⟨after, read⟩ := Reader.program_of_fits fits
  change Except.map Prod.fst (Reader.program limits ⟨program.layout, 0⟩) = _
  rw [read]
  cases program.fault? limits <;> rfl

/-!
## Where there is no fault
-/

theorem findSome?_congr {items : List α} {first? second? : α → Option β}
    (same : ∀ item ∈ items, first? item = second? item) :
    items.findSome? first? = items.findSome? second? := by
  induction items with
  | nil => rfl
  | cons item items inductionHypothesis =>
      rw [List.forall_mem_cons] at same
      rw [List.findSome?_cons, List.findSome?_cons, same.1, inductionHypothesis same.2]

theorem findSome?_flatMap {γ : Type} (items : List α) (parts : α → List β)
    (find? : β → Option γ) :
    (items.flatMap parts).findSome? find? =
      items.findSome? fun item => (parts item).findSome? find? := by
  induction items with
  | nil => rfl
  | cons item items inductionHypothesis =>
      rw [List.flatMap_cons, List.findSome?_append, List.findSome?_cons, inductionHypothesis]
      cases (parts item).findSome? find? <;> rfl

/-- Within the limit on nesting only values have faults. -/
theorem Condition.fault?_of_depth_le {declared : List Parameter} {limit levels : Nat}
    {condition : Condition Timestamp} (within : condition.depth ≤ levels) :
    condition.fault? declared limit levels =
      condition.tests.findSome? fun leaf => leaf.2.fault? declared leaf.1 := by
  induction levels generalizing condition with
  | zero => exact absurd within (Nat.not_le_of_lt condition.depth_pos)
  | succ levels inductionHypothesis =>
      cases condition with
      | all children =>
          rw [depth_all_le_succ_iff] at within
          rw [fault?, tests_all, findSome?_flatMap]
          exact findSome?_congr fun child membership =>
            inductionHypothesis (within child membership)
      | test kind value =>
          rw [fault?, tests_test, List.findSome?_cons]
          cases value.fault? declared kind <;> rfl

theorem Parameter.firstFault?_eq_none {declared parameters : List Parameter}
    (typed : ∀ parameter ∈ parameters, parameter.type ≠ .reference)
    (distinct : ((declared ++ parameters).map name).Nodup) :
    firstFault? declared parameters = none := by
  induction parameters generalizing declared with
  | nil => rfl
  | cons parameter later inductionHypothesis =>
      rw [List.forall_mem_cons] at typed
      rw [List.map_append, List.map_cons, List.nodup_middle, ← List.map_append] at distinct
      have fresh : ¬(declared.any (·.name == parameter.name)) = true := by
        intro repeated
        obtain ⟨other, membership, same⟩ := List.any_eq_true.mp repeated
        apply (List.nodup_cons.mp distinct).1
        rw [← beq_iff_eq.mp same]
        exact List.mem_map_of_mem (List.mem_append_left later membership)
      have laterFault : firstFault? (parameter :: declared) later = none :=
        inductionHypothesis typed.2 distinct
      rw [firstFault?, fault?, if_neg typed.1, if_neg fresh, laterFault]
      rfl

end Cohort
