import Cohort.Bytecode.Compilation
import Cohort.Limits
import Cohort.Program.Basic
import Cohort.Proofs.Calendar.Ticks
import Cohort.Proofs.Condition.Structure

/-!
# The bytecode format

The layout of a program as bytes, said for every program, and what a program has to satisfy to be
stored (`Fits`) and to be loaded (`WellFormed`).
-/

namespace Cohort

/-- A text that the format can hold: ASCII characters, their number in two bytes. -/
structure IsStorable (text : String) : Prop where
  ascii : ∀ character ∈ text.toList, character.toNat < 128
  short : text.toList.length ≤ 65535

def textLayout (text : String) : List UInt8 :=
  bigEndian 2 text.toList.length ++ asciiBytes text

namespace Value

/-- A value behind the tag of its type: a name, a count of ticks, or a number in two's
complement. -/
def layout : Value Timestamp → List UInt8
  | .reference name => ValueType.reference.byte :: textLayout name
  | .date moment => ValueType.date.byte :: bigEndian 8 moment.tickCount
  | .species id => ValueType.int32.byte :: bigEndian 4 id.toUInt32.toNat

def Fits : Value Timestamp → Prop
  | .reference name => IsStorable name
  | .date moment => moment.OnTick
  | .species _ => True

/-- Whether a value has a type, or refers to a declared parameter of that type. -/
def Suits (declared : List Parameter) (type : ValueType) : Value Timestamp → Prop
  | .reference name => ∃ parameter ∈ declared, parameter.name = name ∧ parameter.type = type
  | .date _ => type = .date
  | .species _ => type = .int32

end Value

namespace Condition

mutual

/-- A condition behind its opcode, blocks before their children. -/
def layout : Condition Timestamp → List UInt8
  | all children =>
      Opcode.all.byte :: (bigEndian 2 children.length ++ layoutBelow children)
  | test kind value => (Opcode.test kind).byte :: value.layout

def layoutBelow : List (Condition Timestamp) → List UInt8
  | [] => []
  | child :: siblings => child.layout ++ layoutBelow siblings

end

theorem layoutBelow_eq_flatMap (children : List (Condition Timestamp)) :
    layoutBelow children = children.flatMap layout :=
  eq_flatMap_of_cons rfl (fun _ _ => rfl) children

theorem layout_all (children : List (Condition Timestamp)) :
    (all children).layout =
      Opcode.all.byte :: (bigEndian 2 children.length ++ children.flatMap layout) := by
  rw [layout, layoutBelow_eq_flatMap]

structure Fits (condition : Condition Timestamp) : Prop where
  childCounts : ∀ count ∈ condition.childCounts, count ≤ 65535
  values : ∀ leaf ∈ condition.tests, leaf.2.Fits

theorem fits_all_iff {children : List (Condition Timestamp)} :
    (all children).Fits ↔ children.length ≤ 65535 ∧ ∀ child ∈ children, child.Fits := by
  constructor
  · rintro ⟨counts, values⟩
    rw [forall_mem_childCounts_all_iff] at counts
    rw [forall_mem_tests_all_iff] at values
    exact ⟨counts.1, fun child membership =>
      ⟨counts.2 child membership, values child membership⟩⟩
  · rintro ⟨count, children⟩
    refine ⟨forall_mem_childCounts_all_iff.mpr ⟨count, ?_⟩, forall_mem_tests_all_iff.mpr ?_⟩
    · exact fun child membership => (children child membership).childCounts
    · exact fun child membership => (children child membership).values

theorem fits_test_iff {kind : Test} {value : Value Timestamp} :
    (test kind value).Fits ↔ value.Fits := by
  constructor
  · exact fun fits => fits.values (kind, value) (List.mem_singleton.mpr rfl)
  · intro fits
    refine ⟨fun count membership => absurd membership List.not_mem_nil, ?_⟩
    intro leaf membership
    rw [tests_test, List.mem_singleton] at membership
    rw [membership]
    exact fits

end Condition

def Parameter.layout (parameter : Parameter) : List UInt8 :=
  parameter.type.byte :: textLayout parameter.name

namespace Program

def body (program : Program) : List UInt8 :=
  textLayout program.name ++ (bigEndian 2 program.parameters.length ++
    (program.parameters.flatMap Parameter.layout ++ program.root.layout))

/-- The image of a program: the version, the length of what follows, and the rest. -/
def layout (program : Program) : List UInt8 :=
  bigEndian 2 program.version.toNat ++ (bigEndian 4 program.body.length ++ program.body)

structure Fits (program : Program) : Prop where
  name : IsStorable program.name
  parameterCount : program.parameters.length ≤ 65535
  parameterNames : ∀ parameter ∈ program.parameters, IsStorable parameter.name
  root : program.root.Fits
  body : program.body.length ≤ 4294967295

/-- Whether a program is one that running can rely on, within the limits. -/
structure WellFormed (limits : Limits) (program : Program) : Prop where
  version : program.version ≤ min limits.maxVersion 1
  distinctNames : (program.parameters.map Parameter.name).Nodup
  noReferenceTypes : ∀ parameter ∈ program.parameters, parameter.type ≠ .reference
  block : program.root.isBlock = true
  depth : program.root.depth ≤ limits.maxDepth
  operands : ∀ leaf ∈ program.root.tests, leaf.2.Suits program.parameters leaf.1.operand

end Program

/-!
## Unique readability

Parts of an image that fit are delimited by themselves: two of them with the same bytes, whatever
follows each, are equal and so is what follows.
-/

theorem bigEndian_append_inj {width first second : Nat} {firstRest secondRest : List UInt8}
    (firstSmall : first < Nat.pow 256 width) (secondSmall : second < Nat.pow 256 width)
    (same : bigEndian width first ++ firstRest = bigEndian width second ++ secondRest) :
    first = second ∧ firstRest = secondRest := by
  have parts := List.append_inj same (by simp)
  refine ⟨?_, parts.2⟩
  have values := congrArg ofBigEndian parts.1
  rwa [ofBigEndian_bigEndian, ofBigEndian_bigEndian, Nat.mod_eq_of_lt firstSmall,
    Nat.mod_eq_of_lt secondSmall] at values

theorem ofList_map_asciiBytes {text : String}
    (ascii : ∀ character ∈ text.toList, character.toNat < 128) :
    String.ofList ((asciiBytes text).map fun byte => Char.ofNat byte.toNat) = text := by
  have restored : ∀ character ∈ text.toList,
      Char.ofNat (UInt8.ofNat character.toNat).toNat = character := by
    intro character membership
    have small := ascii character membership
    rw [UInt8.toNat_ofNat', Nat.mod_eq_of_lt (by omega), Char.ofNat_toNat]
  have characters : (asciiBytes text).map (fun byte => Char.ofNat byte.toNat) = text.toList := by
    rw [asciiBytes, List.map_map]
    exact (List.map_congr_left restored).trans (List.map_id' text.toList)
  rw [characters, String.ofList_toList]

@[simp]
theorem length_asciiBytes (text : String) : (asciiBytes text).length = text.toList.length :=
  List.length_map _

theorem textLayout_append_inj {first second : String} {firstRest secondRest : List UInt8}
    (firstStorable : IsStorable first) (secondStorable : IsStorable second)
    (same : textLayout first ++ firstRest = textLayout second ++ secondRest) :
    first = second ∧ firstRest = secondRest := by
  simp only [textLayout, List.append_assoc] at same
  have lengths := bigEndian_append_inj (Nat.lt_succ_of_le firstStorable.short)
    (Nat.lt_succ_of_le secondStorable.short) same
  have parts := List.append_inj lengths.2 (by simpa using lengths.1)
  refine ⟨?_, parts.2⟩
  rw [← ofList_map_asciiBytes firstStorable.ascii, parts.1,
    ofList_map_asciiBytes secondStorable.ascii]

/-- Equally many parts that are delimited by themselves are so together. -/
theorem flatMap_append_inj {Part Symbol : Type} {layout : Part → List Symbol}
    {firsts seconds : List Part}
    (delimited : ∀ first ∈ firsts, ∀ second ∈ seconds, ∀ firstRest secondRest,
      layout first ++ firstRest = layout second ++ secondRest →
        first = second ∧ firstRest = secondRest)
    (sameLength : firsts.length = seconds.length) {firstRest secondRest : List Symbol}
    (same : firsts.flatMap layout ++ firstRest = seconds.flatMap layout ++ secondRest) :
    firsts = seconds ∧ firstRest = secondRest := by
  induction firsts generalizing seconds with
  | nil =>
      cases seconds with
      | nil => exact ⟨rfl, same⟩
      | cons second seconds => contradiction
  | cons first firsts inductionHypothesis =>
      cases seconds with
      | nil => contradiction
      | cons second seconds =>
          simp only [List.flatMap_cons, List.append_assoc] at same
          have heads := delimited first (by simp) second (by simp) _ _ same
          have tails := inductionHypothesis
            (fun first inFirsts second inSeconds =>
              delimited first (by simp [inFirsts]) second (by simp [inSeconds]))
            (Nat.succ.inj sameLength) heads.2
          exact ⟨by rw [heads.1, tails.1], tails.2⟩

theorem ValueType.byte_injective {first second : ValueType} (same : first.byte = second.byte) :
    first = second := by
  have found := ofByte?_byte first
  rw [same, ofByte?_byte] at found
  exact (Option.some.inj found).symm

theorem Opcode.byte_injective {first second : Opcode} (same : first.byte = second.byte) :
    first = second := by
  have found := ofByte?_byte first
  rw [same, ofByte?_byte] at found
  exact (Option.some.inj found).symm

theorem int32_eq_of_toNat_eq {first second : Int32}
    (same : first.toUInt32.toNat = second.toUInt32.toNat) : first = second := by
  have words : first.toUInt32 = second.toUInt32 := UInt32.toNat_inj.mp same
  rw [← Int32.toInt32_toUInt32 first, words, Int32.toInt32_toUInt32]

theorem Value.layout_append_inj {first second : Value Timestamp}
    {firstRest secondRest : List UInt8} (firstFits : first.Fits) (secondFits : second.Fits)
    (same : first.layout ++ firstRest = second.layout ++ secondRest) :
    first = second ∧ firstRest = secondRest := by
  cases first <;> cases second <;>
    rcases List.cons.inj same with ⟨tags, remainders⟩ <;>
    try exact absurd (ValueType.byte_injective tags) (by decide)
  case reference.reference =>
      have parts := textLayout_append_inj firstFits secondFits remainders
      exact ⟨by rw [parts.1], parts.2⟩
  case date.date =>
      have bound : Timestamp.lastTick < Nat.pow 256 8 := by decide
      have parts := bigEndian_append_inj (Nat.lt_of_le_of_lt firstFits.tickCount_le bound)
        (Nat.lt_of_le_of_lt secondFits.tickCount_le bound) remainders
      exact ⟨by rw [firstFits.eq_of_tickCount_eq secondFits parts.1], parts.2⟩
  case species.species =>
      have parts := bigEndian_append_inj (UInt32.toNat_lt _) (UInt32.toNat_lt _) remainders
      exact ⟨by rw [int32_eq_of_toNat_eq parts.1], parts.2⟩

theorem Condition.layout_append_inj {first second : Condition Timestamp}
    {firstRest secondRest : List UInt8} (firstFits : first.Fits) (secondFits : second.Fits)
    (same : first.layout ++ firstRest = second.layout ++ secondRest) :
    first = second ∧ firstRest = secondRest := by
  induction first using Condition.induction generalizing second firstRest secondRest with
  | test kind value =>
      cases second with
      | all children =>
          rw [layout_all] at same
          have opcodes := Opcode.byte_injective (List.cons.inj same).1
          contradiction
      | test otherKind otherValue =>
          have parts := List.cons.inj same
          have opcodes := Opcode.byte_injective parts.1
          have values := Value.layout_append_inj (fits_test_iff.mp firstFits)
            (fits_test_iff.mp secondFits) parts.2
          exact ⟨by rw [Opcode.test.inj opcodes, values.1], values.2⟩
  | all children inductionHypothesis =>
      cases second with
      | test kind value =>
          rw [layout_all] at same
          have opcodes := Opcode.byte_injective (List.cons.inj same).1
          contradiction
      | all otherChildren =>
          rw [fits_all_iff] at firstFits secondFits
          simp only [layout_all, List.cons_append, List.append_assoc] at same
          have counts := bigEndian_append_inj (Nat.lt_succ_of_le firstFits.1)
            (Nat.lt_succ_of_le secondFits.1) (List.cons.inj same).2
          have parts := flatMap_append_inj
            (fun child membership other otherMembership _ _ =>
              inductionHypothesis child membership (firstFits.2 child membership)
                (secondFits.2 other otherMembership))
            counts.1 counts.2
          exact ⟨by rw [parts.1], parts.2⟩

theorem Parameter.layout_append_inj {first second : Parameter} {firstRest secondRest : List UInt8}
    (firstStorable : IsStorable first.name) (secondStorable : IsStorable second.name)
    (same : first.layout ++ firstRest = second.layout ++ secondRest) :
    first = second ∧ firstRest = secondRest := by
  obtain ⟨name, type⟩ := first
  obtain ⟨otherName, otherType⟩ := second
  obtain ⟨tags, remainders⟩ := List.cons.inj same
  have parts := textLayout_append_inj firstStorable secondStorable remainders
  have types : type = otherType := ValueType.byte_injective tags
  have names : name = otherName := parts.1
  exact ⟨by rw [names, types], parts.2⟩

/-- An image stands for one program that fits, whether or not it can be loaded. -/
theorem Program.eq_of_layout_eq {first second : Program} (firstFits : first.Fits)
    (secondFits : second.Fits) (same : first.layout = second.layout) : first = second := by
  obtain ⟨version, name, parameters, root⟩ := first
  obtain ⟨otherVersion, otherName, otherParameters, otherRoot⟩ := second
  have versions := bigEndian_append_inj (UInt16.toNat_lt _) (UInt16.toNat_lt _) same
  have lengths := bigEndian_append_inj (Nat.lt_succ_of_le firstFits.body)
    (Nat.lt_succ_of_le secondFits.body) versions.2
  have names := textLayout_append_inj firstFits.name secondFits.name lengths.2
  have counts := bigEndian_append_inj (Nat.lt_succ_of_le firstFits.parameterCount)
    (Nat.lt_succ_of_le secondFits.parameterCount) names.2
  have declarations := flatMap_append_inj
    (fun parameter membership other otherMembership _ _ =>
      Parameter.layout_append_inj (firstFits.parameterNames parameter membership)
        (secondFits.parameterNames other otherMembership))
    counts.1 counts.2
  have bare : root.layout ++ [] = otherRoot.layout ++ [] := congrArg (· ++ []) declarations.2
  have roots := Condition.layout_append_inj firstFits.root secondFits.root bare
  simp only [Program.mk.injEq]
  exact ⟨UInt16.toNat_inj.mp versions.1, names.1, declarations.1, roots.1⟩

end Cohort
