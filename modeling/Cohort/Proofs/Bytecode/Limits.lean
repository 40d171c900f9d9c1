import Cohort.Proofs.Bytecode.Delimiting

/-!
# Limits cut off

Lower limits only cut off: loading with them stops at a limit or gives what it gives with higher
ones, a program as well as a fault.  Which programs they cut off is read off the version and the
depth of the program.
-/

namespace Cohort

variable {α β : Type}

/-- Whether a fault is that an image is beyond a limit. -/
def LoadError.IsLimit : LoadError → Prop
  | .unsupportedVersion _ _ | .nestingTooDeep _ => True
  | _ => False

namespace Reader

/-- Whether a reader stops at a limit wherever it does not give the same as another one. -/
def CutsOff (first second : Reader α) : Prop :=
  ∀ cursor, first cursor = second cursor ∨
    ∃ problem, first cursor = .error problem ∧ problem.IsLimit

namespace CutsOff

theorem refl (read : Reader α) : CutsOff read read :=
  fun _ => .inl rfl

theorem of_eq_error {first second : Reader α} (problem : LoadError) (isLimit : problem.IsLimit)
    (stops : ∀ cursor, first cursor = .error problem) : CutsOff first second :=
  fun cursor => .inr ⟨problem, stops cursor, isLimit⟩

theorem bind {first second : Reader α} {next following : α → Reader β}
    (reads : CutsOff first second) (later : ∀ value, CutsOff (next value) (following value)) :
    CutsOff (first >>= next) (second >>= following) := by
  intro cursor
  rcases reads cursor with same | ⟨problem, stopped, isLimit⟩
  · cases read : first cursor with
    | error problem =>
        apply Or.inl
        rw [bind_eq_error_iff.mpr (.inl read),
          bind_eq_error_iff.mpr (.inl (same.symm.trans read))]
    | ok step =>
        obtain ⟨value, middle⟩ := step
        rw [bind_of_eq_ok read, bind_of_eq_ok (same.symm.trans read)]
        exact later value middle
  · exact .inr ⟨problem, bind_eq_error_iff.mpr (.inl stopped), isLimit⟩

theorem ite {condition : Prop} [Decidable condition] {first second other another : Reader α}
    (whenTrue : CutsOff first second) (whenFalse : CutsOff other another) :
    CutsOff (if condition then first else other) (if condition then second else another) := by
  by_cases holds : condition
  · rwa [if_pos holds, if_pos holds]
  · rwa [if_neg holds, if_neg holds]

theorem times {first second : Reader α} (reads : CutsOff first second) (count : Nat)
    (results : List α) : CutsOff (times first count results) (times second count results) := by
  induction count generalizing results with
  | zero => exact .refl _
  | succ count inductionHypothesis =>
      rw [times_succ, times_succ]
      exact reads.bind fun result => inductionHypothesis (result :: results)

end CutsOff

/-- With fewer levels the same condition is read, unless the levels run out. -/
theorem cutsOff_condition (declared : List Parameter) (smaller larger : Nat) {levels more : Nat}
    (le : levels ≤ more) :
    CutsOff (condition declared smaller levels) (condition declared larger more) := by
  induction levels generalizing more with
  | zero => exact .of_eq_error (.nestingTooDeep smaller) trivial fun _ => rfl
  | succ levels inductionHypothesis =>
      obtain ⟨more, rfl⟩ := Nat.exists_eq_succ_of_ne_zero (Nat.ne_zero_of_lt le)
      have below := inductionHypothesis (Nat.le_of_succ_le_succ le)
      rw [condition, condition]
      apply CutsOff.bind (.refl _)
      intro start
      apply CutsOff.bind (.refl _)
      intro tag
      cases Opcode.ofByte? tag with
      | none => exact .refl _
      | some opcode =>
          cases opcode with
          | reserved => exact .refl _
          | test kind => exact .refl _
          | all =>
              apply CutsOff.bind (.refl _)
              intro count
              exact (below.times count []).bind fun _ => .refl _

theorem cutsOff_program {smaller larger : Limits} (depth : smaller.maxDepth ≤ larger.maxDepth)
    (version : smaller.supportedVersion ≤ larger.supportedVersion) :
    CutsOff (program smaller) (program larger) := by
  unfold program
  apply CutsOff.bind (.refl _)
  intro number
  by_cases tooNew : smaller.supportedVersion < UInt16.ofNat number
  · rw [if_pos tooNew]
    exact .of_eq_error (.unsupportedVersion _ smaller.supportedVersion) trivial fun _ => rfl
  · have supported : ¬larger.supportedVersion < UInt16.ofNat number :=
      fun newer => tooNew (UInt16.lt_of_le_of_lt version newer)
    rw [if_neg tooNew, if_neg supported]
    apply CutsOff.bind (.refl _)
    intro declared
    apply CutsOff.bind (.refl _)
    intro cursor
    apply CutsOff.ite (.refl _)
    apply CutsOff.bind (.refl _)
    intro name
    apply CutsOff.bind (.refl _)
    intro count
    apply CutsOff.bind (.refl _)
    intro parameters
    apply CutsOff.bind (cutsOff_condition parameters _ _ depth)
    intro root
    exact .refl _

end Reader

theorem findSome?_ite {items : List α} {property : α → Prop} [DecidablePred property]
    {problem : β} :
    (items.findSome? fun item => if property item then none else some problem) =
      if ∀ item ∈ items, property item then none else some problem := by
  induction items with
  | nil => simp
  | cons item items inductionHypothesis =>
      rw [List.findSome?_cons, inductionHypothesis]
      by_cases holds : property item
      · simp [holds]
      · simp [holds]

/-- A condition whose values are in order has no fault but that it may be too deep. -/
theorem Condition.fault?_of_values {declared : List Parameter} {limit levels : Nat}
    {condition : Condition Timestamp}
    (values : ∀ leaf ∈ condition.tests, leaf.2.fault? declared leaf.1 = none) :
    condition.fault? declared limit levels =
      if condition.depth ≤ levels then none else some (.nestingTooDeep limit) := by
  induction levels generalizing condition with
  | zero => rw [if_neg (Nat.not_le_of_lt condition.depth_pos), fault?]
  | succ levels inductionHypothesis =>
      cases condition with
      | test kind value =>
          have shallow : (test kind value).depth ≤ levels + 1 :=
            Nat.succ_le_succ (Nat.zero_le levels)
          rw [if_pos shallow, fault?]
          exact values (kind, value) (List.mem_singleton.mpr rfl)
      | all children =>
          rw [forall_mem_tests_all_iff] at values
          rw [fault?, findSome?_congr fun child membership =>
            inductionHypothesis (values child membership), findSome?_ite]
          simp only [depth_all_le_succ_iff]

namespace Program

/-- Of a program that has no fault within some limits, others only ask for version and depth. -/
theorem fault?_of_fault?_eq_none {limits other : Limits} {program : Program}
    (sound : program.fault? limits = none) (depth : program.root.depth ≤ limits.maxDepth) :
    program.fault? other =
      if other.supportedVersion < program.version then
        some (.unsupportedVersion program.version other.supportedVersion)
      else if program.root.depth ≤ other.maxDepth then none
      else some (.nestingTooDeep other.maxDepth) := by
  unfold fault? at sound
  split at sound
  next => contradiction
  next =>
    rw [Option.or_eq_none_iff, Option.or_eq_none_iff, Condition.fault?_of_depth_le depth,
      List.findSome?_eq_none_iff] at sound
    obtain ⟨parameters, values, block⟩ := sound
    rw [fault?, parameters, Condition.fault?_of_values values, block]
    simp

theorem load_eq_or_isLimit {smaller larger : Limits}
    (depth : smaller.maxDepth ≤ larger.maxDepth)
    (version : smaller.supportedVersion ≤ larger.supportedVersion) (image : List UInt8) :
    load smaller image = load larger image ∨
      ∃ problem, load smaller image = .error problem ∧ problem.IsLimit := by
  change Except.map Prod.fst (Reader.program smaller ⟨image, 0⟩) =
      Except.map Prod.fst (Reader.program larger ⟨image, 0⟩) ∨
    ∃ problem, Except.map Prod.fst (Reader.program smaller ⟨image, 0⟩) = .error problem ∧ _
  rcases Reader.cutsOff_program depth version ⟨image, 0⟩ with same | ⟨problem, stopped, isLimit⟩
  · exact .inl (by rw [same])
  · exact .inr ⟨problem, by rw [stopped, Except.map], isLimit⟩

theorem load_of_load {limits other : Limits} {image : List UInt8} {program : Program}
    (loaded : load limits image = .ok program) :
    load other image =
      if other.supportedVersion < program.version then
        .error (.unsupportedVersion program.version other.supportedVersion)
      else if program.root.depth ≤ other.maxDepth then .ok program
      else .error (.nestingTooDeep other.maxDepth) := by
  obtain ⟨rfl, fits, wellFormed⟩ := layout_of_load loaded
  have sound : program.fault? limits = none := by
    rw [load_layout_eq fits] at loaded
    cases faulty : program.fault? limits with
    | none => rfl
    | some problem =>
        rw [faulty] at loaded
        contradiction
  rw [load_layout_eq fits, fault?_of_fault?_eq_none sound wellFormed.depth]
  split
  · rfl
  · split
    · rfl
    · rfl

/-- Lower limits only cut off.  Where loading does not stop at one of them, it gives the same as
with the higher ones; and a program that is loaded with the higher ones is refused with the lower
ones exactly if its version is newer or its nesting deeper than they allow. -/
theorem load_of_limits_le (smaller larger : Limits)
    (depth : smaller.maxDepth ≤ larger.maxDepth)
    (version : min smaller.maxVersion 1 ≤ min larger.maxVersion 1) (image : List UInt8) :
    ((∀ limit, load smaller image ≠ .error (.nestingTooDeep limit)) →
      (∀ found supported, load smaller image ≠ .error (.unsupportedVersion found supported)) →
      load larger image = load smaller image) ∧
    ∀ program, load larger image = .ok program →
      load smaller image =
        if min smaller.maxVersion 1 < program.version then
          .error (.unsupportedVersion program.version (min smaller.maxVersion 1))
        else if program.root.depth ≤ smaller.maxDepth then .ok program
        else .error (.nestingTooDeep smaller.maxDepth) := by
  refine ⟨fun shallow supported => ?_, fun program => load_of_load⟩
  rcases load_eq_or_isLimit depth version image with same | ⟨problem, stopped, isLimit⟩
  · exact same.symm
  · cases problem with
    | nestingTooDeep limit => exact absurd stopped (shallow limit)
    | unsupportedVersion found newest => exact absurd stopped (supported found newest)
    | _ => exact False.elim isLimit

/-- The image of a program in which an empty block is nested in a block. -/
def twoLevelImage : List UInt8 :=
  [0, 1, 0, 0, 0, 11, 0, 1, 103, 0, 0, 1, 0, 1, 1, 0, 0]

theorem load_twoLevelImage :
    load ⟨1, 1⟩ twoLevelImage = .error (.nestingTooDeep 1) ∧
      load ⟨2, 0⟩ twoLevelImage = .error (.unsupportedVersion 1 0) ∧
      ∃ program, load ⟨2, 1⟩ twoLevelImage = .ok program ∧
        load ⟨5, 3⟩ twoLevelImage = .ok program := by
  have loaded : load ⟨2, 1⟩ twoLevelImage = .ok ⟨1, "g", [], .all [.all []]⟩ := rfl
  have shallow : ∀ limit, load ⟨2, 1⟩ twoLevelImage ≠ .error (.nestingTooDeep limit) := by
    simp [loaded]
  have supported : ∀ found supported,
      load ⟨2, 1⟩ twoLevelImage ≠ .error (.unsupportedVersion found supported) := by
    simp [loaded]
  have same := (load_of_limits_le ⟨2, 1⟩ ⟨5, 3⟩ (by decide) (by decide) twoLevelImage).1 shallow
    supported
  have loadedHigher := same.trans loaded
  exact ⟨(load_of_limits_le ⟨1, 1⟩ ⟨5, 3⟩ (by decide) (by decide) twoLevelImage).2 _ loadedHigher,
    (load_of_limits_le ⟨2, 0⟩ ⟨5, 3⟩ (by decide) (by decide) twoLevelImage).2 _ loadedHigher,
    _, loaded, loadedHigher⟩

end Program

end Cohort
