import Cohort.Proofs.Bytecode.Layout
import Mathlib.Data.String.Basic

/-!
# The parts of a script

A script is written part by part, and the format may be unable to hold a part of it.  A script is
representable when the format can hold all of its parts, and its program fits the format when its
image is, besides, not too long.
-/

namespace Cohort

/-- What a script is written of, as far as the format limits it. -/
inductive Part where
  | text (field : Field) (text : String)
  | parameterCount (count : Nat)
  | childCount (count : Nat)
  | date (day : Date)

/-- Why the format cannot hold a part, if it cannot.  The characters of a text come before its
length. -/
def Part.problem? : Part → Option CompileError
  | .text field written =>
      if written.toList.all isAscii then
        if written.utf8ByteSize ≤ 65535 then none
        else some (.textTooLong field written.utf8ByteSize)
      else
        some (.nonAscii written)
  | .parameterCount count => if count ≤ 65535 then none else some (.tooManyParameters count)
  | .childCount count => if count ≤ 65535 then none else some (.tooManyChildren count)
  | .date day => if 1 ≤ day.year then none else some (.dateOutOfRange day)

def Value.parts : Value Date → List Part
  | .reference name => [.text .parameterReference name]
  | .date day => [.date day]
  | .species _ => []

namespace Condition

mutual

/-- The parts of a condition, the number of children of a block before those of the children. -/
def parts : Condition Date → List Part
  | all children => .childCount children.length :: partsBelow children
  | test _ value => value.parts

def partsBelow : List (Condition Date) → List Part
  | [] => []
  | child :: siblings => child.parts ++ partsBelow siblings

end

end Condition

namespace Script

/-- The parts of a script in the order of its image. -/
def parts (script : Script) : List Part :=
  .text .scriptName script.name :: .parameterCount script.parameters.length ::
    (script.parameters.map (fun declaration => .text .parameterName declaration.name) ++
      script.root.parts)

/-- A script all of whose parts the format can hold. -/
structure Representable (script : Script) : Prop where
  name : IsStorable script.name
  parameterCount : script.parameters.length ≤ 65535
  parameterNames : ∀ declaration ∈ script.parameters, IsStorable declaration.name
  childCounts : ∀ count ∈ script.root.childCounts, count ≤ 65535
  references : ∀ kind name, (kind, .reference name) ∈ script.root.tests → IsStorable name
  dates : ∀ kind day, (kind, .date day) ∈ script.root.tests → 1 ≤ day.year

end Script

/-!
## Parts that can be held
-/

theorem all_isAscii_iff {text : String} :
    text.toList.all isAscii = true ↔ ∀ character ∈ text.toList, character.toNat < 128 := by
  simp [isAscii]

theorem utf8Len_of_ascii {characters : List Char}
    (ascii : ∀ character ∈ characters, character.toNat < 128) :
    String.utf8Len characters = characters.length := by
  induction characters with
  | nil => rfl
  | cons character later inductionHypothesis =>
      rw [List.forall_mem_cons] at ascii
      have single : character.utf8Size = 1 :=
        Char.utf8Size_eq_one_iff.mpr (Nat.le_of_lt_succ ascii.1)
      rw [String.utf8Len_cons, inductionHypothesis ascii.2, single, List.length_cons]

/-- An ASCII text has as many bytes as characters. -/
theorem utf8ByteSize_of_ascii {text : String}
    (ascii : ∀ character ∈ text.toList, character.toNat < 128) :
    text.utf8ByteSize = text.toList.length :=
  (String.utf8Len_toList text).symm.trans (utf8Len_of_ascii ascii)

namespace Part

theorem problem?_text_eq_none_iff {field : Field} {written : String} :
    (text field written).problem? = none ↔ IsStorable written := by
  by_cases ascii : written.toList.all isAscii = true
  · have characters := all_isAscii_iff.mp ascii
    rw [problem?, if_pos ascii, utf8ByteSize_of_ascii characters]
    constructor
    · intro held
      exact ⟨characters, by simpa using held⟩
    · intro storable
      simpa using storable.short
  · rw [problem?, if_neg ascii]
    constructor
    · intro held
      contradiction
    · intro storable
      exact absurd (all_isAscii_iff.mpr storable.ascii) ascii

@[simp]
theorem problem?_parameterCount_eq_none_iff {count : Nat} :
    (parameterCount count).problem? = none ↔ count ≤ 65535 := by
  simp [problem?]

@[simp]
theorem problem?_childCount_eq_none_iff {count : Nat} :
    (childCount count).problem? = none ↔ count ≤ 65535 := by
  simp [problem?]

@[simp]
theorem problem?_date_eq_none_iff {day : Date} : (date day).problem? = none ↔ 1 ≤ day.year := by
  simp [problem?]

end Part

namespace Condition

theorem partsBelow_eq_flatMap (children : List (Condition Date)) :
    partsBelow children = children.flatMap parts :=
  eq_flatMap_of_cons rfl (fun _ _ => rfl) children

theorem parts_all (children : List (Condition Date)) :
    (all children).parts = .childCount children.length :: children.flatMap parts := by
  rw [parts, partsBelow_eq_flatMap]

/-- The parts of a condition are the child counts of its blocks and the parts of its values. -/
theorem forall_mem_parts_iff {condition : Condition Date} {property : Part → Prop} :
    (∀ part ∈ condition.parts, property part) ↔
      (∀ count ∈ condition.childCounts, property (.childCount count)) ∧
        ∀ leaf ∈ condition.tests, ∀ part ∈ leaf.2.parts, property part := by
  induction condition using induction with
  | test kind value => simp [parts]
  | all children inductionHypothesis =>
      rw [parts_all, List.forall_mem_cons, List.forall_mem_flatMap,
        forall_mem_childCounts_all_iff, forall_mem_tests_all_iff, and_assoc]
      apply and_congr_right
      intro _
      rw [← forall₂_and]
      exact forall₂_congr inductionHypothesis

end Condition

namespace Script

/-- The first problem of a script, in the order of its image. -/
def problem? (script : Script) : Option CompileError :=
  script.parts.findSome? Part.problem?

theorem problem?_eq_none_iff {script : Script} :
    script.problem? = none ↔ script.Representable := by
  simp only [problem?, parts, List.findSome?_eq_none_iff, List.forall_mem_cons,
    List.forall_mem_append, List.forall_mem_map, Condition.forall_mem_parts_iff,
    Part.problem?_text_eq_none_iff, Part.problem?_parameterCount_eq_none_iff,
    Part.problem?_childCount_eq_none_iff]
  constructor
  · rintro ⟨name, count, names, counts, values⟩
    refine ⟨name, count, names, counts, ?_, ?_⟩
    · intro kind reference membership
      exact Part.problem?_text_eq_none_iff.mp
        (values (kind, .reference reference) membership _ (List.mem_singleton.mpr rfl))
    · intro kind day membership
      exact Part.problem?_date_eq_none_iff.mp
        (values (kind, .date day) membership _ (List.mem_singleton.mpr rfl))
  · rintro ⟨name, count, names, counts, references, dates⟩
    refine ⟨name, count, names, counts, ?_⟩
    rintro ⟨kind, value⟩ membership
    cases value with
    | reference reference =>
        rw [Value.parts, List.forall_mem_singleton]
        exact Part.problem?_text_eq_none_iff.mpr (references kind reference membership)
    | date day =>
        rw [Value.parts, List.forall_mem_singleton]
        exact Part.problem?_date_eq_none_iff.mpr (dates kind day membership)
    | species id => simp [Value.parts]

end Script

end Cohort
