import Cohort.Proofs.Bytecode.Reading
import Mathlib.Data.List.Nodup

/-!
# Which images are loaded

The readers of parameters, values, conditions and whole programs, and from them the main
statement: loading accepts exactly the layouts of well-formed programs, and gives them back.
-/

namespace Cohort

namespace Reader

/-- A parameter that may follow those declared so far. -/
structure Declarable (declared : List Parameter) (parameter : Parameter) : Prop where
  storable : IsStorable parameter.name
  noReference : parameter.type ≠ .reference
  fresh : parameter.name ∉ declared.map Parameter.name

theorem reads_parameter (declared : List Parameter) :
    Reads (parameter declared) Parameter.layout (Declarable declared) := by
  intro cursor result after
  have unused : ∀ name, ¬(declared.any (·.name == name)) = true ↔
      name ∉ declared.map Parameter.name := by
    simp [List.any_eq_true]
  unfold parameter
  simp only [bind_eq_ok_iff, reads_valueType _ _ _, reads_text .parameterName _ _ _, true_and,
    unless_eq_ok_iff, pure_eq_ok_iff, unused]
  constructor
  · rintro ⟨type, start, passesType, name, _, ⟨storable, passesName⟩, noReference, fresh, rfl, rfl⟩
    exact ⟨⟨storable, noReference, fresh⟩,
      Cursor.passes_cons_iff.mpr ⟨start, passesType, passesName⟩⟩
  · rintro ⟨⟨storable, noReference, fresh⟩, passes⟩
    obtain ⟨start, passesType, passesName⟩ := Cursor.passes_cons_iff.mp passes
    exact ⟨result.type, start, passesType, result.name, after, ⟨storable, passesName⟩, noReference,
      fresh, rfl, rfl⟩

theorem parameters_succ (count : Nat) (declared : List Parameter) :
    parameters (count + 1) declared =
      parameter declared >>= fun next => parameters count (next :: declared) := by
  funext cursor
  change _ = Except.bind (parameter declared cursor) fun step =>
    parameters count (step.1 :: declared) step.2
  simp only [parameters]
  cases parameter declared cursor <;> rfl

theorem parameters_eq_ok_iff {count : Nat} {declared final : List Parameter}
    {cursor after : Cursor} :
    parameters count declared cursor = .ok (final, after) ↔
      ∃ items, final = declared.reverse ++ items ∧ items.length = count ∧
        (∀ item ∈ items, Declarable declared item) ∧ (items.map Parameter.name).Nodup ∧
        cursor.Passes (items.flatMap Parameter.layout) after := by
  induction count generalizing declared cursor with
  | zero =>
      rw [parameters, Except.ok.injEq, Prod.mk.injEq]
      constructor
      · rintro ⟨rfl, rfl⟩
        exact ⟨[], by simp, rfl, by simp, List.nodup_nil, Cursor.passes_nil_iff.mpr rfl⟩
      · rintro ⟨items, rfl, empty, -, -, passes⟩
        rw [List.length_eq_zero_iff] at empty
        subst empty
        exact ⟨by simp, (Cursor.passes_nil_iff.mp passes).symm⟩
  | succ count inductionHypothesis =>
      rw [parameters_succ, bind_eq_ok_iff]
      constructor
      · rintro ⟨next, middle, first, later⟩
        obtain ⟨items, rfl, rfl, valids, distinct, passes⟩ := inductionHypothesis.mp later
        have parts := (reads_parameter declared _ _ _).mp first
        refine ⟨next :: items, by simp, rfl, ?_, ?_, ?_⟩
        · refine List.forall_mem_cons.mpr ⟨parts.1, fun item membership => ?_⟩
          have valid := valids item membership
          refine ⟨valid.storable, valid.noReference, fun old => valid.fresh ?_⟩
          exact List.mem_cons_of_mem _ old
        · rw [List.map_cons, List.nodup_cons]
          refine ⟨fun repeated => ?_, distinct⟩
          obtain ⟨item, membership, same⟩ := List.mem_map.mp repeated
          exact (valids item membership).fresh (by rw [same]; exact List.mem_cons_self)
        · exact Cursor.passes_append_iff.mpr ⟨middle, parts.2, passes⟩
      · rintro ⟨items, rfl, length, valids, distinct, passes⟩
        cases items with
        | nil => contradiction
        | cons item items =>
            rw [List.forall_mem_cons] at valids
            rw [List.map_cons, List.nodup_cons] at distinct
            obtain ⟨middle, first, later⟩ := Cursor.passes_append_iff.mp passes
            refine ⟨item, middle, (reads_parameter declared _ _ _).mpr ⟨valids.1, first⟩, ?_⟩
            refine inductionHypothesis.mpr
              ⟨items, by simp, Nat.succ.inj length, ?_, distinct.2, later⟩
            intro other membership
            have valid := valids.2 other membership
            refine ⟨valid.storable, valid.noReference, ?_⟩
            rw [List.map_cons, List.mem_cons]
            rintro (same | old)
            · exact distinct.1 (same ▸ List.mem_map_of_mem membership)
            · exact valid.fresh old

end Reader

theorem find?_name_eq_some_iff {declared : List Parameter}
    (distinct : (declared.map Parameter.name).Nodup) {name : String} {parameter : Parameter} :
    declared.find? (·.name == name) = some parameter ↔
      parameter ∈ declared ∧ parameter.name = name := by
  constructor
  · intro found
    exact ⟨List.mem_of_find?_eq_some found, by simpa using List.find?_some found⟩
  · rintro ⟨membership, rfl⟩
    cases found : declared.find? (·.name == parameter.name) with
    | none =>
        have missing := List.find?_eq_none.mp found parameter membership
        simp at missing
    | some other =>
        have same : other.name = parameter.name := by simpa using List.find?_some found
        rw [List.inj_on_of_nodup_map distinct (List.mem_of_find?_eq_some found) membership same]

namespace Reader

theorem int32_ofNat_toNat {number : Nat} (small : number < 4294967296) :
    (UInt32.ofNat number).toInt32.toUInt32.toNat = number := by
  rw [UInt32.toUInt32_toInt32, UInt32.toNat_ofNat', Nat.mod_eq_of_lt small]

theorem passes_layout_of_value {declared : List Parameter}
    (distinct : (declared.map Parameter.name).Nodup) {test : Test} {cursor after : Cursor}
    {result : Value Timestamp} (read : value declared test cursor = .ok (result, after)) :
    (result.Fits ∧ result.Suits declared test.operand) ∧ cursor.Passes result.layout after := by
  unfold value at read
  simp only [bind_eq_ok_iff, reads_valueType _ _ _, true_and] at read
  obtain ⟨type, start, passesType, read⟩ := read
  cases type with
  | reference =>
      simp only [bind_eq_ok_iff, reads_text .parameterReference _ _ _] at read
      obtain ⟨name, finish, ⟨storable, passesName⟩, read⟩ := read
      cases found : declared.find? (·.name == name) with
      | none =>
          rw [found] at read
          exact absurd read throw_ne_ok
      | some parameter =>
          simp only [found, ite_throw_eq_ok_iff, pure_eq_ok_iff] at read
          obtain ⟨typed, rfl, rfl⟩ := read
          have declaration := (find?_name_eq_some_iff distinct).mp found
          exact ⟨⟨storable, parameter, declaration.1, declaration.2, typed⟩,
            Cursor.passes_cons_iff.mpr ⟨start, passesType, passesName⟩⟩
  | date =>
      simp only [ite_throw_eq_ok_iff, bind_eq_ok_iff, reads_number .dateLiteral 8 _ _ _] at read
      obtain ⟨typed, ticks, finish, ⟨small, passesTicks⟩, read⟩ := read
      cases found : Timestamp.ofTicks? ticks with
      | none =>
          rw [found] at read
          exact absurd read throw_ne_ok
      | some timestamp =>
          rw [found] at read
          obtain ⟨rfl, rfl⟩ := pure_eq_ok_iff.mp read
          obtain ⟨onTick, rfl⟩ := Timestamp.ofTicks?_eq_some_iff.mp found
          exact ⟨⟨onTick, typed⟩, Cursor.passes_cons_iff.mpr ⟨start, passesType, passesTicks⟩⟩
  | int32 =>
      simp only [ite_throw_eq_ok_iff, bind_eq_ok_iff, reads_number .intLiteral 4 _ _ _,
        pure_eq_ok_iff] at read
      obtain ⟨typed, number, finish, ⟨small, passesNumber⟩, rfl, rfl⟩ := read
      refine ⟨⟨trivial, typed⟩, Cursor.passes_cons_iff.mpr ⟨start, passesType, ?_⟩⟩
      rwa [int32_ofNat_toNat small]

theorem value_of_passes_layout {declared : List Parameter}
    (distinct : (declared.map Parameter.name).Nodup) {test : Test} {cursor after : Cursor}
    {result : Value Timestamp} (fits : result.Fits) (suits : result.Suits declared test.operand)
    (passes : cursor.Passes result.layout after) :
    value declared test cursor = .ok (result, after) := by
  unfold value
  simp only [bind_eq_ok_iff, reads_valueType _ _ _, true_and]
  cases result with
  | reference name =>
      obtain ⟨start, passesType, passesName⟩ := Cursor.passes_cons_iff.mp passes
      obtain ⟨parameter, membership, named, typed⟩ := suits
      refine ⟨.reference, start, passesType, ?_⟩
      simp only [bind_eq_ok_iff, reads_text .parameterReference _ _ _]
      refine ⟨name, after, ⟨fits, passesName⟩, ?_⟩
      rw [(find?_name_eq_some_iff distinct).mpr ⟨membership, named⟩]
      exact ite_throw_eq_ok_iff.mpr ⟨typed, pure_eq_ok_iff.mpr ⟨rfl, rfl⟩⟩
  | date timestamp =>
      obtain ⟨start, passesType, passesTicks⟩ := Cursor.passes_cons_iff.mp passes
      have bound : Timestamp.lastTick < Nat.pow 256 8 := by decide
      refine ⟨.date, start, passesType, ?_⟩
      simp only [ite_throw_eq_ok_iff, bind_eq_ok_iff, reads_number .dateLiteral 8 _ _ _]
      refine ⟨suits, timestamp.tickCount, after,
        ⟨Nat.lt_of_le_of_lt fits.tickCount_le bound, passesTicks⟩, ?_⟩
      rw [Timestamp.ofTicks?_eq_some_iff.mpr ⟨fits, rfl⟩]
      exact pure_eq_ok_iff.mpr ⟨rfl, rfl⟩
  | species id =>
      obtain ⟨start, passesType, passesNumber⟩ := Cursor.passes_cons_iff.mp passes
      refine ⟨.int32, start, passesType, ?_⟩
      simp only [ite_throw_eq_ok_iff, bind_eq_ok_iff, reads_number .intLiteral 4 _ _ _,
        pure_eq_ok_iff]
      refine ⟨suits, id.toUInt32.toNat, after, ⟨UInt32.toNat_lt _, passesNumber⟩, ?_, rfl⟩
      rw [UInt32.ofNat_toNat, Int32.toInt32_toUInt32]

theorem reads_value {declared : List Parameter} (distinct : (declared.map Parameter.name).Nodup)
    (test : Test) :
    Reads (value declared test) Value.layout
      fun value => value.Fits ∧ value.Suits declared test.operand := by
  intro cursor result after
  constructor
  · exact passes_layout_of_value distinct
  · rintro ⟨⟨fits, suits⟩, passes⟩
    exact value_of_passes_layout distinct fits suits passes

/-- A condition that can be read where some levels are left. -/
structure Readable (declared : List Parameter) (levels : Nat) (condition : Condition Timestamp) :
    Prop where
  fits : condition.Fits
  operands : ∀ leaf ∈ condition.tests, leaf.2.Suits declared leaf.1.operand
  depth : condition.depth ≤ levels

theorem readable_all_succ_iff {declared : List Parameter} {levels : Nat}
    {children : List (Condition Timestamp)} :
    Readable declared (levels + 1) (.all children) ↔
      children.length ≤ 65535 ∧ ∀ child ∈ children, Readable declared levels child := by
  constructor
  · rintro ⟨fits, operands, depth⟩
    rw [Condition.fits_all_iff] at fits
    rw [Condition.forall_mem_tests_all_iff] at operands
    rw [Condition.depth_all_le_succ_iff] at depth
    exact ⟨fits.1, fun child membership =>
      ⟨fits.2 child membership, operands child membership, depth child membership⟩⟩
  · rintro ⟨count, children⟩
    refine ⟨Condition.fits_all_iff.mpr ⟨count, fun child membership => ?_⟩,
      Condition.forall_mem_tests_all_iff.mpr fun child membership => ?_,
      Condition.depth_all_le_succ_iff.mpr fun child membership => ?_⟩
    · exact (children child membership).fits
    · exact (children child membership).operands
    · exact (children child membership).depth

theorem readable_test_succ_iff {declared : List Parameter} {levels : Nat} {kind : Test}
    {value : Value Timestamp} :
    Readable declared (levels + 1) (.test kind value) ↔
      value.Fits ∧ value.Suits declared kind.operand := by
  constructor
  · rintro ⟨fits, operands, -⟩
    exact ⟨Condition.fits_test_iff.mp fits, operands (kind, value) (List.mem_singleton.mpr rfl)⟩
  · rintro ⟨fits, suits⟩
    refine ⟨Condition.fits_test_iff.mpr fits, ?_, Nat.succ_le_succ (Nat.zero_le levels)⟩
    intro leaf membership
    rw [Condition.tests_test, List.mem_singleton] at membership
    rw [membership]
    exact suits

theorem passes_layout_of_condition {declared : List Parameter} {limit levels : Nat}
    (distinct : (declared.map Parameter.name).Nodup)
    (below : Reads (condition declared limit levels) Condition.layout (Readable declared levels))
    {cursor after : Cursor} {result : Condition Timestamp}
    (read : condition declared limit (levels + 1) cursor = .ok (result, after)) :
    Readable declared (levels + 1) result ∧ cursor.Passes result.layout after := by
  rw [condition] at read
  simp only [bind_eq_ok_iff, offset_eq_ok_iff, reads_byte .opcode _ _ _, true_and] at read
  obtain ⟨_, _, ⟨rfl, rfl⟩, tag, start, passesOpcode, read⟩ := read
  cases found : Opcode.ofByte? tag with
  | none =>
      rw [found] at read
      exact absurd read throw_ne_ok
  | some opcode =>
      have byte := Opcode.ofByte?_eq_some_iff.mp found
      rw [found] at read
      subst byte
      cases opcode with
      | reserved => exact absurd read throw_ne_ok
      | all =>
          simp only [bind_eq_ok_iff, reads_number .childCount 2 _ _ _, pure_eq_ok_iff,
            times_eq_ok_iff below] at read
          obtain ⟨_, middle, ⟨small, passesCount⟩, children, _,
            ⟨_, rfl, rfl, readable, passesChildren⟩, rfl, rfl⟩ := read
          rw [Condition.layout_all]
          refine ⟨readable_all_succ_iff.mpr ⟨Nat.le_of_lt_succ small, readable⟩, ?_⟩
          exact Cursor.passes_cons_iff.mpr ⟨start, passesOpcode,
            Cursor.passes_append_iff.mpr ⟨middle, passesCount, passesChildren⟩⟩
      | test kind =>
          simp only [bind_eq_ok_iff, reads_value distinct kind _ _ _, pure_eq_ok_iff] at read
          obtain ⟨value, _, ⟨readable, passesValue⟩, rfl, rfl⟩ := read
          exact ⟨readable_test_succ_iff.mpr readable,
            Cursor.passes_cons_iff.mpr ⟨start, passesOpcode, passesValue⟩⟩

theorem condition_of_passes_layout {declared : List Parameter} {limit levels : Nat}
    (distinct : (declared.map Parameter.name).Nodup)
    (below : Reads (condition declared limit levels) Condition.layout (Readable declared levels))
    {cursor after : Cursor} {result : Condition Timestamp}
    (readable : Readable declared (levels + 1) result)
    (passes : cursor.Passes result.layout after) :
    condition declared limit (levels + 1) cursor = .ok (result, after) := by
  rw [condition]
  simp only [bind_eq_ok_iff, offset_eq_ok_iff, reads_byte .opcode _ _ _, true_and]
  refine ⟨_, _, ⟨rfl, rfl⟩, result.opcode.byte, ?_⟩
  rw [Opcode.ofByte?_byte]
  cases result with
  | all children =>
      rw [Condition.layout_all] at passes
      obtain ⟨start, passesOpcode, passesRest⟩ := Cursor.passes_cons_iff.mp passes
      obtain ⟨middle, passesCount, passesChildren⟩ := Cursor.passes_append_iff.mp passesRest
      have parts := readable_all_succ_iff.mp readable
      refine ⟨start, passesOpcode, ?_⟩
      simp only [Condition.opcode, bind_eq_ok_iff, reads_number .childCount 2 _ _ _,
        pure_eq_ok_iff, times_eq_ok_iff below]
      exact ⟨children.length, middle, ⟨Nat.lt_succ_of_le parts.1, passesCount⟩, children, after,
        ⟨children, by simp, rfl, parts.2, passesChildren⟩, rfl, rfl⟩
  | test kind value =>
      obtain ⟨start, passesOpcode, passesValue⟩ := Cursor.passes_cons_iff.mp passes
      refine ⟨start, passesOpcode, ?_⟩
      simp only [Condition.opcode, bind_eq_ok_iff, reads_value distinct kind _ _ _,
        pure_eq_ok_iff]
      exact ⟨value, after, ⟨readable_test_succ_iff.mp readable, passesValue⟩, rfl, rfl⟩

theorem reads_condition {declared : List Parameter}
    (distinct : (declared.map Parameter.name).Nodup) (limit levels : Nat) :
    Reads (condition declared limit levels) Condition.layout (Readable declared levels) := by
  -- The reader recurses on the levels, so the children are read with one level less.
  induction levels with
  | zero =>
      intro cursor result after
      constructor
      · exact fun read => absurd read throw_ne_ok
      · rintro ⟨readable, -⟩
        exact absurd readable.depth (Nat.not_le_of_lt result.depth_pos)
  | succ levels inductionHypothesis =>
      intro cursor result after
      constructor
      · exact passes_layout_of_condition distinct inductionHypothesis
      · rintro ⟨readable, passes⟩
        exact condition_of_passes_layout distinct inductionHypothesis readable passes

theorem get_eq_ok_iff {cursor after found : Cursor} :
    (get : Reader Cursor) cursor = .ok (found, after) ↔ cursor = found ∧ cursor = after := by
  change Except.ok (cursor, cursor) = _ ↔ _
  simp

theorem declarable_nil_iff {parameter : Parameter} :
    Declarable [] parameter ↔ IsStorable parameter.name ∧ parameter.type ≠ .reference := by
  constructor
  · rintro ⟨storable, noReference, -⟩
    exact ⟨storable, noReference⟩
  · rintro ⟨storable, noReference⟩
    exact ⟨storable, noReference, List.not_mem_nil⟩

theorem passes_body {program : Program} {cursor after : Cursor} :
    cursor.Passes program.body after ↔
      ∃ afterName, cursor.Passes (textLayout program.name) afterName ∧
        ∃ afterCount, afterName.Passes (bigEndian 2 program.parameters.length) afterCount ∧
          ∃ afterParameters,
            afterCount.Passes (program.parameters.flatMap Parameter.layout) afterParameters ∧
              afterParameters.Passes program.root.layout after := by
  simp only [Program.body, Cursor.passes_append_iff]

theorem layout_of_program {limits : Limits} {image : List UInt8} {result : Program}
    {after : Cursor} (read : program limits ⟨image, 0⟩ = .ok (result, after)) :
    image = result.layout ∧ result.Fits ∧ result.WellFormed limits := by
  unfold program at read
  simp only [bind_eq_ok_iff, unless_eq_ok_iff, reads_number .version 2 _ _ _,
    reads_number .length 4 _ _ _, reads_number .parameterCount 2 _ _ _, get_eq_ok_iff,
    reads_text .scriptName _ _ _, parameters_eq_ok_iff, pure_eq_ok_iff, declarable_nil_iff,
    List.reverse_nil, List.nil_append] at read
  obtain ⟨version, afterVersion, ⟨versionSmall, passesVersion⟩, supported, length, afterLength,
    ⟨lengthSmall, passesLength⟩, _, _, ⟨rfl, rfl⟩, lengthExact, name, afterName, ⟨storable,
    passesName⟩, _, afterCount, ⟨countSmall, passesCount⟩, declared, afterParameters, ⟨_, rfl, rfl,
    declarable, distinct, passesParameters⟩, root, finish, readRoot, block, _, _, ⟨rfl, rfl⟩, ended,
    rfl, rfl⟩ := read
  obtain ⟨readable, passesRoot⟩ :=
    (reads_condition distinct limits.maxDepth limits.maxDepth _ _ _).mp readRoot
  let result : Program := ⟨UInt16.ofNat version, name, declared, root⟩
  have passesBody : afterLength.Passes result.body finish :=
    passes_body.mpr ⟨afterName, passesName, afterCount, passesCount, afterParameters,
      passesParameters, passesRoot⟩
  have nothingLeft : finish.rest = [] := List.length_eq_zero_iff.mp (Nat.eq_zero_of_not_pos ended)
  have bodyBytes : afterLength.rest = result.body := by
    rw [passesBody.rest, nothingLeft, List.append_nil]
  have bodyLength : length = result.body.length := by
    rw [← bodyBytes]
    exact Decidable.not_not.mp lengthExact
  have versionNumber : (UInt16.ofNat version).toNat = version := by
    have inTwoBytes : version < 2 ^ 16 := versionSmall
    rw [UInt16.toNat_ofNat', Nat.mod_eq_of_lt inTwoBytes]
  refine ⟨?_, ⟨storable, Nat.le_of_lt_succ countSmall, fun parameter membership =>
    (declarable parameter membership).1, readable.fits,
    bodyLength ▸ Nat.le_of_lt_succ lengthSmall⟩,
    ⟨UInt16.not_lt.mp supported, distinct, fun parameter membership =>
    (declarable parameter membership).2, by simpa using block, readable.depth,
    readable.operands⟩⟩
  have start : image = bigEndian 2 version ++ afterVersion.rest := passesVersion.rest
  rw [start, passesLength.rest, bodyBytes, bodyLength]
  change _ = bigEndian 2 (UInt16.ofNat version).toNat ++ _
  rw [versionNumber]

theorem program_of_layout {limits : Limits} {result : Program} (fits : result.Fits)
    (wellFormed : result.WellFormed limits) :
    ∃ after, program limits ⟨result.layout, 0⟩ = .ok (result, after) := by
  unfold program
  simp only [bind_eq_ok_iff, unless_eq_ok_iff, reads_number .version 2 _ _ _,
    reads_number .length 4 _ _ _, reads_number .parameterCount 2 _ _ _, get_eq_ok_iff,
    reads_text .scriptName _ _ _, parameters_eq_ok_iff, pure_eq_ok_iff, declarable_nil_iff,
    List.reverse_nil, List.nil_append]
  let finish : Cursor := ⟨[], result.layout.length⟩
  have passesImage : (⟨result.layout, 0⟩ : Cursor).Passes result.layout finish :=
    ⟨(List.append_nil _).symm, (Nat.zero_add _).symm⟩
  obtain ⟨afterVersion, passesVersion, passesRest⟩ := Cursor.passes_append_iff.mp passesImage
  obtain ⟨afterLength, passesLength, passesBody⟩ := Cursor.passes_append_iff.mp passesRest
  obtain ⟨afterName, passesName, afterCount, passesCount, afterParameters, passesParameters,
    passesRoot⟩ := passes_body.mp passesBody
  have readRoot := (reads_condition wellFormed.distinctNames limits.maxDepth limits.maxDepth
    _ _ _).mpr ⟨⟨fits.root, wellFormed.operands, wellFormed.depth⟩, passesRoot⟩
  have bodyLength : result.body.length = afterLength.rest.length := by
    rw [passesBody.rest, List.append_nil]
  refine ⟨finish, result.version.toNat, afterVersion, ⟨UInt16.toNat_lt _, passesVersion⟩, ?_,
    result.body.length, afterLength, ⟨Nat.lt_succ_of_le fits.body, passesLength⟩, _, _, ⟨rfl, rfl⟩,
    fun mismatch => mismatch bodyLength, result.name, afterName, ⟨fits.name, passesName⟩,
    result.parameters.length, afterCount, ⟨Nat.lt_succ_of_le fits.parameterCount, passesCount⟩,
    result.parameters, afterParameters, ⟨result.parameters, rfl, rfl, ?_,
    wellFormed.distinctNames, passesParameters⟩, result.root, finish, readRoot,
    by simp [wellFormed.block], _, _, ⟨rfl, rfl⟩, Nat.lt_irrefl 0, ?_, rfl⟩
  · rw [UInt16.ofNat_toNat]
    exact UInt16.not_lt.mpr wellFormed.version
  · exact fun parameter membership =>
      ⟨fits.parameterNames parameter membership, wellFormed.noReferenceTypes parameter membership⟩
  · rw [UInt16.ofNat_toNat]

end Reader

namespace Program

theorem load_eq_ok_iff_read {limits : Limits} {image : List UInt8} {program : Program} :
    load limits image = .ok program ↔
      ∃ after, Reader.program limits ⟨image, 0⟩ = .ok (program, after) := by
  change Except.map Prod.fst (Reader.program limits ⟨image, 0⟩) = _ ↔ _
  cases Reader.program limits ⟨image, 0⟩ with
  | error problem => simp [Except.map]
  | ok step =>
      obtain ⟨found, after⟩ := step
      simp [Except.map]

/-- An image that is loaded is the layout of the program that it gives, which is well-formed. -/
theorem layout_of_load {limits : Limits} {image : List UInt8} {program : Program}
    (loaded : load limits image = .ok program) :
    image = program.layout ∧ program.Fits ∧ program.WellFormed limits := by
  obtain ⟨after, read⟩ := load_eq_ok_iff_read.mp loaded
  exact Reader.layout_of_program read

theorem load_layout {limits : Limits} {program : Program} (fits : program.Fits)
    (wellFormed : program.WellFormed limits) : load limits program.layout = .ok program :=
  load_eq_ok_iff_read.mpr (Reader.program_of_layout fits wellFormed)

/-- Loading accepts exactly the images of programs that fit the format and are well-formed within
the limits, and gives the program that the image lays out. -/
theorem load_eq_ok_iff (limits : Limits) (image : List UInt8) (program : Program) :
    load limits image = .ok program ↔
      image = program.layout ∧ program.Fits ∧ program.WellFormed limits := by
  constructor
  · exact layout_of_load
  · rintro ⟨rfl, fits, wellFormed⟩
    exact load_layout fits wellFormed

end Program

end Cohort
