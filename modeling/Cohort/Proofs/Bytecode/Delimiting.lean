import Cohort.Proofs.Bytecode.Faults

/-!
# Readers see no further than they read

What a reader gives does not depend on the bytes behind those that it passes over, and a fault that
it finds in them stays whatever follows.  Only where the bytes run out can more of them help.
-/

namespace Cohort

variable {α β : Type}

/-- Whether a fault lies in the bytes that were read, and not in how many there are. -/
def LoadError.IsSettled : LoadError → Prop
  | .truncated _ _ | .lengthMismatch _ _ | .trailingBytes _ => False
  | _ => True

namespace Reader

/-- A reader that sees no further than it reads: a result does not depend on what follows, nor
does a fault, unless the bytes run out. -/
structure Delimited (read : Reader α) : Prop where
  passes : ∀ cursor result after, read cursor = .ok (result, after) →
    ∃ used, cursor.Passes used after ∧
      ∀ more, read ⟨used ++ more, cursor.offset⟩ = .ok (result, ⟨more, after.offset⟩)
  fails : ∀ cursor problem, read cursor = .error problem →
    (∃ offset field, problem = .truncated offset field ∧
      offset ≤ cursor.offset + cursor.rest.length) ∨
    (problem.IsSettled ∧ ∀ more, read ⟨cursor.rest ++ more, cursor.offset⟩ = .error problem)

theorem bind_eq_error_iff {read : Reader α} {next : α → Reader β} {cursor : Cursor}
    {problem : LoadError} :
    (read >>= next) cursor = .error problem ↔
      read cursor = .error problem ∨
        ∃ value middle, read cursor = .ok (value, middle) ∧ next value middle = .error problem := by
  change Except.bind (read cursor) (fun step => next step.1 step.2) = _ ↔ _
  cases read cursor with
  | error found => simp [Except.bind]
  | ok step =>
      obtain ⟨value, middle⟩ := step
      simp [Except.bind]

namespace Delimited

theorem pure (result : α) : Delimited (pure result : Reader α) where
  passes := by
    intro cursor found after read
    obtain ⟨rfl, rfl⟩ := pure_eq_ok_iff.mp read
    exact ⟨[], Cursor.passes_nil_iff.mpr rfl, fun more => rfl⟩
  fails := by
    intro cursor problem read
    contradiction

theorem throw {problem : LoadError} (settled : problem.IsSettled) :
    Delimited (throw problem : Reader α) where
  passes := fun cursor result after read => absurd read throw_ne_ok
  fails := by
    intro cursor found read
    cases read
    exact .inr ⟨settled, fun more => rfl⟩

theorem bind {read : Reader α} {next : α → Reader β} (first : Delimited read)
    (later : ∀ value, Delimited (next value)) : Delimited (read >>= next) where
  passes := by
    intro cursor result after found
    obtain ⟨value, middle, foundFirst, foundLater⟩ := bind_eq_ok_iff.mp found
    obtain ⟨used, passesFirst, sameFirst⟩ := first.passes _ _ _ foundFirst
    obtain ⟨usedLater, passesLater, sameLater⟩ := (later value).passes _ _ _ foundLater
    refine ⟨used ++ usedLater, Cursor.passes_append_iff.mpr ⟨middle, passesFirst, passesLater⟩, ?_⟩
    intro more
    rw [List.append_assoc, bind_of_eq_ok (sameFirst (usedLater ++ more))]
    exact sameLater more
  fails := by
    intro cursor problem found
    rcases bind_eq_error_iff.mp found with foundFirst | ⟨value, middle, foundFirst, foundLater⟩
    · rcases first.fails _ _ foundFirst with truncated | ⟨settled, stays⟩
      · exact .inl truncated
      · exact .inr ⟨settled, fun more => bind_eq_error_iff.mpr (.inl (stays more))⟩
    · obtain ⟨used, passesFirst, sameFirst⟩ := first.passes _ _ _ foundFirst
      rcases (later value).fails _ _ foundLater with ⟨offset, field, rfl, inside⟩ | ⟨settled, stays⟩
      · refine .inl ⟨offset, field, rfl, ?_⟩
        rw [passesFirst.offset] at inside
        rw [passesFirst.rest, List.length_append]
        omega
      · refine .inr ⟨settled, fun more => ?_⟩
        rw [passesFirst.rest, List.append_assoc, bind_of_eq_ok (sameFirst (middle.rest ++ more))]
        exact stays more

theorem ite {condition : Prop} [Decidable condition] {first second : Reader α}
    (whenTrue : Delimited first) (whenFalse : Delimited second) :
    Delimited (if condition then first else second) := by
  by_cases holds : condition
  · rwa [if_pos holds]
  · rwa [if_neg holds]

end Delimited

theorem delimited_offset : Delimited offset where
  passes := by
    intro cursor place after read
    obtain ⟨rfl, rfl⟩ := offset_eq_ok_iff.mp read
    exact ⟨[], Cursor.passes_nil_iff.mpr rfl, fun more => rfl⟩
  fails := by
    intro cursor problem read
    contradiction

theorem delimited_bytes (field : Field) (count : Nat) : Delimited (bytes field count) where
  passes := by
    intro cursor result after read
    obtain ⟨length, passes⟩ := (reads_bytes field count _ _ _).mp read
    refine ⟨result, passes, fun more => ?_⟩
    exact (reads_bytes field count _ _ _).mpr ⟨length, rfl, passes.offset⟩
  fails := by
    intro cursor problem read
    unfold bytes at read
    dsimp only at read
    split at read
    next => contradiction
    next =>
      cases read
      exact .inl ⟨cursor.offset, field, rfl, Nat.le_add_right _ _⟩

theorem delimited_number (field : Field) (width : Nat) : Delimited (number field width) :=
  (delimited_bytes field width).bind fun _ => .pure _

theorem delimited_byte (field : Field) : Delimited (byte field) :=
  (delimited_number field 1).bind fun _ => .pure _

theorem delimited_text (field : Field) : Delimited (text field) := by
  apply (delimited_number field 2).bind
  intro length
  apply delimited_offset.bind
  intro start
  apply (delimited_bytes field length).bind
  intro characters
  exact .ite (.pure _) (.throw trivial)

/-- Read a body, up to the end of the main condition. -/
def body (limits : Limits) (version : UInt16) : Reader Program := do
  let name ← text .scriptName
  let count ← number .parameterCount 2
  let parameters ← parameters count []
  let root ← condition parameters limits.maxDepth limits.maxDepth
  if !root.isBlock then
    throw (.rootNotBlock root.opcode)
  return ⟨version, name, parameters, root⟩

/-- Check that nothing is left behind a program. -/
def finish (program : Program) : Reader Program := do
  let unread := (← get).rest.length
  if 0 < unread then
    throw (.trailingBytes unread)
  return program

theorem body_finish (limits : Limits) (version : UInt16) :
    body limits version >>= finish = (do
      let name ← text .scriptName
      let count ← number .parameterCount 2
      let parameters ← parameters count []
      let root ← condition parameters limits.maxDepth limits.maxDepth
      if !root.isBlock then
        throw (.rootNotBlock root.opcode)
      finish ⟨version, name, parameters, root⟩) := by
  simp only [body, bind_assoc]
  refine bind_congr fun name => bind_congr fun count => bind_congr fun parameters =>
    bind_congr fun root => ?_
  cases root.isBlock with
  | true => rfl
  | false => rfl

theorem number_bigEndian (field : Field) (width value : Nat) (rest : List UInt8) (offset : Nat) :
    number field width ⟨bigEndian width value ++ rest, offset⟩ =
      .ok (value % Nat.pow 256 width, ⟨rest, offset + width⟩) := by
  have read : bytes field width ⟨bigEndian width value ++ rest, offset⟩ =
      .ok (bigEndian width value, ⟨rest, offset + width⟩) :=
    (reads_bytes field width _ _ _).mpr ⟨length_bigEndian width value, rfl, by simp⟩
  rw [number, bind_of_eq_ok read, ofBigEndian_bigEndian]
  rfl

theorem number_of_short (field : Field) (width : Nat) (cursor : Cursor)
    (short : cursor.rest.length < width) :
    number field width cursor = .error (.truncated cursor.offset field) := by
  have few : ¬(cursor.rest.take width).length = width := by
    rw [List.length_take]
    omega
  have failed : bytes field width cursor = .error (.truncated cursor.offset field) := if_neg few
  exact bind_eq_error_iff.mpr (.inl failed)

end Reader

end Cohort
