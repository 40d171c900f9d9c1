import Cohort.Proofs.Script.Grammar
import Cohort.Script.Parsing

/-!
# Single steps of reading

Every way in which one more token can be taken and every way in which it can fail, and runs over
the tokens of a source as chains of steps that succeed.
-/

namespace Cohort

/-- Whether a token is one that a condition can begin with. -/
def Token.IsStart (token : Token) : Prop :=
  token.kind = .keyword .and ∨ token.kind = .keyword .born ∨ token.kind = .keyword .species

/-- Whether a token is of a kind that is nothing without its text. -/
def Token.NeedsText (token : Token) : Prop :=
  token.kind = .identifier ∨ token.kind = .dateLiteral

namespace Routine

structure Admits (limit : Nat) (routine : Routine) : Prop where
  depth : routine.openBlocks.length < limit
  unfinished : routine.openBlocks = [] → routine.root = none

theorem checkStart_eq_ok_iff {limit : Nat} {position : Position} {routine : Routine} :
    routine.checkStart limit position = .ok () ↔ routine.Admits limit := by
  obtain ⟨openBlocks, root⟩ := routine
  unfold checkStart
  constructor
  · intro checked
    split at checked
    next => contradiction
    next shallow =>
      split at checked
      next => contradiction
      next unfinished =>
        refine ⟨Nat.lt_of_not_le shallow, ?_⟩
        simpa using unfinished
  · rintro ⟨depth, unfinished⟩
    rw [if_neg (Nat.not_le_of_lt depth), if_neg]
    simpa using unfinished

theorem checkStart_eq_error_iff {limit : Nat} {position : Position} {routine : Routine}
    {rejection : Rejection} :
    routine.checkStart limit position = .error rejection ↔
      (limit ≤ routine.openBlocks.length ∧
          rejection = .faulty position (.nestingTooDeep limit)) ∨
        0 < limit ∧ (∃ root, routine = ⟨[], some root⟩) ∧
          rejection = .faulty position .duplicateRoot := by
  obtain ⟨openBlocks, root⟩ := routine
  unfold checkStart
  by_cases deep : limit ≤ openBlocks.length
  · rw [if_pos deep]
    constructor
    · intro rejected
      exact .inl ⟨deep, (Except.error.inj rejected).symm⟩
    · rintro (⟨-, rfl⟩ | ⟨positive, ⟨root, same⟩, rfl⟩)
      · rfl
      · cases same
        exact absurd positive (Nat.not_lt_of_le deep)
  · rw [if_neg deep]
    simp only [deep, false_and, false_or]
    rcases openBlocks with _ | ⟨block, outer⟩
    · have positive : 0 < limit := Nat.lt_of_not_le deep
      cases root with
      | none => simp
      | some root => simp [positive, eq_comm]
    · simp

/-- A finished condition goes into the innermost open block, or becomes the whole condition. -/
inductive Attaches (condition : Condition Date) : Routine → Routine → Prop where
  | inside (block : List (Condition Date)) (outer : List (List (Condition Date)))
      (root : Option (Condition Date)) :
      Attaches condition ⟨block :: outer, root⟩ ⟨(condition :: block) :: outer, root⟩
  | whole : Attaches condition ⟨[], none⟩ ⟨[], some condition⟩

theorem attach_eq_ok_iff {position : Position} {condition : Condition Date}
    {routine next : Routine} :
    routine.attach position condition = .ok next ↔ Attaches condition routine next := by
  constructor
  · intro attached
    rcases routine with ⟨_ | ⟨block, outer⟩, root⟩
    · cases root with
      | none =>
          rw [← Except.ok.inj attached]
          exact .whole
      | some root => contradiction
    · rw [← Except.ok.inj attached]
      exact .inside block outer root
  · intro attaches
    cases attaches <;> rfl

theorem attach_eq_error_iff {position : Position} {condition : Condition Date}
    {routine : Routine} {rejection : Rejection} :
    routine.attach position condition = .error rejection ↔
      (∃ root, routine = ⟨[], some root⟩) ∧ rejection = .faulty position .duplicateRoot := by
  rcases routine with ⟨_ | ⟨block, outer⟩, _ | root⟩
  all_goals simp [attach, eq_comm]

end Routine

namespace Progress

/-- What one more token makes of the progress so far. -/
inductive Transition (limit : Nat) (token : Token) : Progress → Progress → Prop where
  | name : token.kind = .keyword .name → Transition limit token .start .scriptName
  | scriptName {name : String} : token.kind = .identifier → token.text = some name →
      Transition limit token .scriptName (.parameterList name)
  | parameterList {name : String} : token.kind = .keyword .parameters →
      Transition limit token (.parameterList name) (.declarations name [])
  | declaration {name : String} {declared : List Declaration} :
      token.kind = .keyword .species →
      Transition limit token (.declarations name declared) (.parameterName name declared)
  | declarationsEnd {name : String} {declared : List Declaration} :
      token.kind = .keyword .finish →
      Transition limit token (.declarations name declared)
        (.routineHeading ⟨name, declared.reverse⟩)
  | parameterName {name parameter : String} {declared : List Declaration} :
      token.kind = .identifier → token.text = some parameter →
      parameter ∉ declared.map Declaration.name →
      Transition limit token (.parameterName name declared)
        (.declarations name (⟨parameter, .species⟩ :: declared))
  | routineHeading {header : Header} : token.kind = .keyword .routine →
      Transition limit token (.routineHeading header) (.conditions header .empty)
  | announceBlock {header : Header} {routine : Routine} : token.kind = .keyword .and →
      routine.Admits limit →
      Transition limit token (.conditions header routine) (.block header routine)
  | announceBorn {header : Header} {routine : Routine} : token.kind = .keyword .born →
      routine.Admits limit →
      Transition limit token (.conditions header routine)
        (.bornTest ⟨header, routine, token.position⟩)
  | announceSpecies {header : Header} {routine : Routine} : token.kind = .keyword .species →
      routine.Admits limit →
      Transition limit token (.conditions header routine)
        (.speciesTest ⟨header, routine, token.position⟩)
  | closeBlock {header : Header} {block : List (Condition Date)}
      {outer : List (List (Condition Date))} {root : Option (Condition Date)} {next : Routine} :
      token.kind = .mark .rightBrace →
      Routine.Attaches (.all block.reverse) ⟨outer, root⟩ next →
      Transition limit token (.conditions header ⟨block :: outer, root⟩) (.conditions header next)
  | routineEnd {header : Header} {root : Condition Date} : token.kind = .keyword .finish →
      Transition limit token (.conditions header ⟨[], some root⟩)
        (.complete ⟨header.name, header.parameters, root⟩)
  | openBlock {header : Header} {routine : Routine} : token.kind = .mark .leftBrace →
      Transition limit token (.block header routine) (.conditions header routine.openBlock)
  | bornAfter {clause : Clause} : token.kind = .keyword .after →
      Transition limit token (.bornTest clause) (.value clause .bornAfter)
  | bornBefore {clause : Clause} : token.kind = .keyword .before →
      Transition limit token (.bornTest clause) (.value clause .bornBefore)
  | speciesIs {clause : Clause} : token.kind = .keyword .is →
      Transition limit token (.speciesTest clause) (.value clause .speciesIs)
  | announceDate {clause : Clause} {test : Test} : token.kind = .keyword .date →
      Transition limit token (.value clause test) (.dateColon clause test)
  | announceReference {clause : Clause} {test : Test} : token.kind = .keyword .param →
      Transition limit token (.value clause test) (.referenceColon clause test)
  | dateColon {clause : Clause} {test : Test} : token.kind = .mark .colon →
      Transition limit token (.dateColon clause test) (.date clause test)
  | referenceColon {clause : Clause} {test : Test} : token.kind = .mark .colon →
      Transition limit token (.referenceColon clause test) (.reference clause test)
  | date {clause : Clause} {test : Test} {text : String} {day : Date} :
      token.kind = .dateLiteral → token.text = some text → Date.ofLiteral? text = some day →
      Transition limit token (.date clause test) (.clauseEnd clause (.test test (.date day)))
  | reference {clause : Clause} {test : Test} {name : String} :
      token.kind = .identifier → token.text = some name →
      name ∈ clause.header.parameters.map Declaration.name →
      Transition limit token (.reference clause test)
        (.clauseEnd clause (.test test (.reference name)))
  | clauseEnd {clause : Clause} {condition : Condition Date} {next : Routine} :
      token.kind = .mark .semicolon → clause.routine.Attaches condition next →
      Transition limit token (.clauseEnd clause condition) (.conditions clause.header next)

/-- Whether a condition may come next and no block is open. -/
def AtTop (progress : Progress) : Prop :=
  ∃ header root, progress = .conditions header ⟨[], root⟩

/-- Why one more token cannot be taken.  A token of a kind that is not expected is rejected for its
kind, but for a mark that closes a block where none is open; one of an expected kind can only have
a fault. -/
inductive Fails (limit : Nat) (token : Token) : Progress → Rejection → Prop where
  | unexpected {progress : Progress} :
      (token.kind ≠ .endOfInput → token.kind ∉ progress.expected) →
      (token.kind = .mark .rightBrace → ¬progress.AtTop) →
      Fails limit token progress (.unexpected token progress.expected)
  | missingText {progress : Progress} : token.kind ∈ progress.expected → token.NeedsText →
      token.text = none →
      Fails limit token progress (.faulty token.position (.missingText token.kind))
  | duplicateParameter {name parameter : String} {declared : List Declaration} :
      token.kind = .identifier → token.text = some parameter →
      parameter ∈ declared.map Declaration.name →
      Fails limit token (.parameterName name declared)
        (.faulty token.position (.duplicateParameter parameter))
  | nestingTooDeep {header : Header} {routine : Routine} : token.IsStart →
      limit ≤ routine.openBlocks.length →
      Fails limit token (.conditions header routine)
        (.faulty token.position (.nestingTooDeep limit))
  | startBehindRoot {header : Header} {root : Condition Date} : token.IsStart → 0 < limit →
      Fails limit token (.conditions header ⟨[], some root⟩)
        (.faulty token.position .duplicateRoot)
  | strayClose {header : Header} {root : Option (Condition Date)} :
      token.kind = .mark .rightBrace →
      Fails limit token (.conditions header ⟨[], root⟩) (.faulty token.position .strayClose)
  | closeBehindRoot {header : Header} {block : List (Condition Date)} {root : Condition Date} :
      token.kind = .mark .rightBrace →
      Fails limit token (.conditions header ⟨[block], some root⟩)
        (.faulty token.position .duplicateRoot)
  | emptyRoutine {header : Header} : token.kind = .keyword .finish →
      Fails limit token (.conditions header ⟨[], none⟩) (.faulty token.position .emptyRoutine)
  | invalidDate {clause : Clause} {test : Test} {literal : String} :
      token.kind = .dateLiteral → token.text = some literal → Date.ofLiteral? literal = none →
      Fails limit token (.date clause test) (.faulty token.position (.invalidDate literal))
  | undeclaredParameter {clause : Clause} {test : Test} {name : String} :
      token.kind = .identifier → token.text = some name →
      name ∉ clause.header.parameters.map Declaration.name →
      Fails limit token (.reference clause test)
        (.faulty token.position (.undeclaredParameter name))
  | testBehindRoot {clause : Clause} {condition root : Condition Date} :
      token.kind = .mark .semicolon → clause.routine = ⟨[], some root⟩ →
      Fails limit token (.clauseEnd clause condition) (.faulty clause.start .duplicateRoot)

/-- What a step can give: the progress with the token, or why it cannot be taken. -/
inductive Outcome (limit : Nat) (token : Token) (progress : Progress) :
    Except Rejection Progress → Prop where
  | taken {next : Progress} : Transition limit token progress next →
      Outcome limit token progress (.ok next)
  | failed {rejection : Rejection} : Fails limit token progress rejection →
      Outcome limit token progress (.error rejection)

theorem any_name_iff {declared : List Declaration} {name : String} :
    declared.any (·.name == name) = true ↔ name ∈ declared.map Declaration.name := by
  simp

theorem bind_eq_ok_iff {α β : Type} {first : Except Rejection α} {next : α → Except Rejection β}
    {result : β} :
    (first >>= next) = .ok result ↔ ∃ value, first = .ok value ∧ next value = .ok result := by
  cases first with
  | error rejection => simp [bind, Except.bind]
  | ok value => simp [bind, Except.bind]

theorem bind_eq_error_iff {α β : Type} {first : Except Rejection α}
    {next : α → Except Rejection β} {rejection : Rejection} :
    (first >>= next) = .error rejection ↔
      first = .error rejection ∨ ∃ value, first = .ok value ∧ next value = .error rejection := by
  cases first with
  | error found => simp [bind, Except.bind]
  | ok value => simp [bind, Except.bind]

theorem requireText_eq_ok_iff {token : Token} {text : String} :
    token.requireText = .ok text ↔ token.text = some text := by
  unfold Token.requireText
  cases token.text with
  | none => simp
  | some carried => simp

theorem requireText_eq_error_iff {token : Token} {rejection : Rejection} :
    token.requireText = .error rejection ↔
      token.text = none ∧ rejection = .faulty token.position (.missingText token.kind) := by
  unfold Token.requireText
  cases token.text with
  | none => simp [eq_comm]
  | some carried => simp

theorem step_of_transition {limit : Nat} {token : Token} {progress next : Progress}
    (transition : Transition limit token progress next) :
    progress.step limit token = .ok next := by
  cases transition with
  | scriptName kind carried =>
      simp only [step, kind, bind_eq_ok_iff, requireText_eq_ok_iff]
      exact ⟨_, carried, rfl⟩
  | parameterName kind carried fresh =>
      simp only [step, kind, bind_eq_ok_iff, requireText_eq_ok_iff, any_name_iff]
      exact ⟨_, carried, if_neg fresh⟩
  | announceBlock kind admits | announceBorn kind admits | announceSpecies kind admits =>
      simp only [step, kind, bind_eq_ok_iff]
      exact ⟨(), Routine.checkStart_eq_ok_iff.mpr admits, rfl⟩
  | closeBlock kind attaches =>
      simp only [step, kind, bind_eq_ok_iff]
      exact ⟨_, Routine.attach_eq_ok_iff.mpr attaches, rfl⟩
  | date kind carried found =>
      simp only [step, kind, bind_eq_ok_iff, requireText_eq_ok_iff]
      refine ⟨_, carried, ?_⟩
      rw [found]
      rfl
  | reference kind carried declared =>
      simp only [step, kind, bind_eq_ok_iff, requireText_eq_ok_iff, any_name_iff]
      exact ⟨_, carried, if_pos declared⟩
  | clauseEnd kind attaches =>
      simp only [step, kind, bind_eq_ok_iff]
      exact ⟨_, Routine.attach_eq_ok_iff.mpr attaches, rfl⟩
  | _ => simp only [step, *]

variable {limit : Nat} {token : Token} {progress : Progress}

theorem step_of_notMem (unknown : token.kind ∉ progress.expected)
    (closesBlock : token.kind = .mark .rightBrace → ¬progress.AtTop) :
    progress.step limit token = .error (.unexpected token progress.expected) := by
  cases progress with
  | conditions header routine =>
      rcases routine with ⟨_ | ⟨block, outer⟩, root⟩
      · have noClose : token.kind ≠ .mark .rightBrace :=
          fun closing => closesBlock closing ⟨header, root, rfl⟩
        simp only [expected, List.mem_cons, List.not_mem_nil, or_false, not_or] at unknown
        simp [step, expected, unknown, noClose]
      · simp only [expected, List.mem_cons, List.not_mem_nil, or_false, not_or] at unknown
        simp [step, expected, unknown]
  | _ =>
      simp only [expected, List.mem_cons, List.not_mem_nil, or_false, not_or] at unknown
      simp [step, expected, unknown]

theorem outcome_requireText_bind {next : String → Except Rejection Progress}
    (known : token.kind ∈ progress.expected) (needsText : token.NeedsText)
    (continues : ∀ text, token.text = some text → Outcome limit token progress (next text)) :
    Outcome limit token progress (token.requireText >>= next) := by
  cases required : token.requireText with
  | error rejection =>
      obtain ⟨missing, rfl⟩ := requireText_eq_error_iff.mp required
      exact .failed (.missingText known needsText missing)
  | ok text => exact continues text (requireText_eq_ok_iff.mp required)

theorem outcome_checkStart_bind {header : Header} {routine : Routine} {next : Progress}
    (start : token.IsStart)
    (announces : routine.Admits limit → Transition limit token (.conditions header routine) next) :
    Outcome limit token (.conditions header routine)
      (routine.checkStart limit token.position >>= fun _ => .ok next) := by
  cases checked : routine.checkStart limit token.position with
  | error rejection =>
      rcases Routine.checkStart_eq_error_iff.mp checked with
        ⟨deep, rfl⟩ | ⟨positive, ⟨root, rfl⟩, rfl⟩
      · exact .failed (.nestingTooDeep start deep)
      · exact .failed (.startBehindRoot start positive)
  | ok _ => exact .taken (announces (Routine.checkStart_eq_ok_iff.mp checked))

/-- A token of an expected kind is taken, or has a fault. -/
theorem outcome_step_of_mem (unfinished : token.kind ≠ .endOfInput)
    (known : token.kind ∈ progress.expected) :
    Outcome limit token progress (progress.step limit token) := by
  cases progress with
  | start | parameterList | routineHeading | block | speciesTest | dateColon | referenceColon =>
      have kind := List.mem_singleton.mp known
      simp only [step, kind]
      apply Outcome.taken
      constructor
      exact kind
  | declarations | bornTest | value =>
      simp only [expected, List.mem_cons, List.not_mem_nil, or_false] at known
      rcases known with kind | kind
      all_goals
        simp only [step, kind]
        apply Outcome.taken
        constructor
        exact kind
  | scriptName =>
      have kind := List.mem_singleton.mp known
      simp only [step, kind]
      apply outcome_requireText_bind known (.inl kind)
      exact fun name carried => .taken (.scriptName kind carried)
  | parameterName name declared =>
      have kind := List.mem_singleton.mp known
      simp only [step, kind]
      apply outcome_requireText_bind known (.inl kind)
      intro parameter carried
      split
      next repeated =>
        exact .failed (.duplicateParameter kind carried (any_name_iff.mp repeated))
      next fresh =>
        rw [any_name_iff] at fresh
        exact .taken (.parameterName kind carried fresh)
  | date clause test =>
      have kind := List.mem_singleton.mp known
      simp only [step, kind]
      apply outcome_requireText_bind known (.inr kind)
      intro literal carried
      split
      next day found => exact .taken (.date kind carried found)
      next unread => exact .failed (.invalidDate kind carried unread)
  | reference clause test =>
      have kind := List.mem_singleton.mp known
      simp only [step, kind]
      apply outcome_requireText_bind known (.inl kind)
      intro name carried
      split
      next declared => exact .taken (.reference kind carried (any_name_iff.mp declared))
      next undeclared =>
        rw [any_name_iff] at undeclared
        exact .failed (.undeclaredParameter kind carried undeclared)
  | clauseEnd clause condition =>
      have kind := List.mem_singleton.mp known
      simp only [step, kind]
      cases attached : clause.routine.attach clause.start condition with
      | ok next => exact .taken (.clauseEnd kind (Routine.attach_eq_ok_iff.mp attached))
      | error rejection =>
          obtain ⟨⟨root, finished⟩, rfl⟩ := Routine.attach_eq_error_iff.mp attached
          exact .failed (.testBehindRoot kind finished)
  | complete script => exact absurd (List.mem_singleton.mp known) unfinished
  | conditions header routine =>
      rcases routine with ⟨_ | ⟨block, outer⟩, root⟩
      all_goals
        simp only [expected, List.mem_cons, List.not_mem_nil, or_false] at known
        rcases known with kind | kind | kind | kind
      case nil.inr.inr.inr =>
        simp only [step, kind]
        cases root with
        | none => exact .failed (.emptyRoutine kind)
        | some root => exact .taken (.routineEnd kind)
      case cons.inr.inr.inr =>
        simp only [step, kind, Routine.closeBlock]
        cases attached : Routine.attach token.position (.all block.reverse) ⟨outer, root⟩ with
        | ok next => exact .taken (.closeBlock kind (Routine.attach_eq_ok_iff.mp attached))
        | error rejection =>
            obtain ⟨⟨root, finished⟩, rfl⟩ := Routine.attach_eq_error_iff.mp attached
            cases finished
            exact .failed (.closeBehindRoot kind)
      all_goals
        simp only [step, kind]
        first
        | exact outcome_checkStart_bind (.inl kind) (.announceBlock kind)
        | exact outcome_checkStart_bind (.inr (.inl kind)) (.announceBorn kind)
        | exact outcome_checkStart_bind (.inr (.inr kind)) (.announceSpecies kind)

theorem step_of_closing {header : Header} {root : Option (Condition Date)}
    (closing : token.kind = .mark .rightBrace) :
    (Progress.conditions header ⟨[], root⟩).step limit token =
      .error (.faulty token.position .strayClose) := by
  simp only [step, closing]
  rfl

/-- Every step takes its token, or fails in one of the ways that there are. -/
theorem outcome_step (limit : Nat) (token : Token) (progress : Progress) :
    Outcome limit token progress (progress.step limit token) := by
  by_cases ended : token.kind = .endOfInput
  · rw [step_of_ended ended]
    exact .failed (.unexpected (absurd ended) (by simp [ended]))
  · by_cases known : token.kind ∈ progress.expected
    · exact outcome_step_of_mem ended known
    · by_cases stray : token.kind = .mark .rightBrace ∧ progress.AtTop
      · obtain ⟨closing, header, root, rfl⟩ := stray
        rw [step_of_closing closing]
        exact .failed (.strayClose closing)
      · rw [not_and] at stray
        rw [step_of_notMem known stray]
        exact .failed (.unexpected (fun _ => known) stray)

theorem step_of_missingText (known : token.kind ∈ progress.expected) (needsText : token.NeedsText)
    (missing : token.text = none) :
    progress.step limit token =
      .error (.faulty token.position (.missingText token.kind)) := by
  have required := requireText_eq_error_iff.mpr ⟨missing, rfl⟩
  cases progress with
  | scriptName | parameterName | date | reference =>
      have kind := List.mem_singleton.mp known
      simp only [step, kind, required]
      rfl
  | conditions header routine =>
      rcases routine with ⟨_ | ⟨block, outer⟩, root⟩
      all_goals rcases needsText with kind | kind <;> simp [expected, kind] at known
  | _ => rcases needsText with kind | kind <;> simp [expected, kind] at known

theorem step_of_checkStart_eq_error {header : Header} {routine : Routine} {rejection : Rejection}
    (start : token.IsStart)
    (checked : routine.checkStart limit token.position = .error rejection) :
    (Progress.conditions header routine).step limit token = .error rejection := by
  rcases start with kind | kind | kind
  all_goals
    simp only [step, kind, checked]
    rfl

theorem step_of_fails {rejection : Rejection} (fails : Fails limit token progress rejection) :
    progress.step limit token = .error rejection := by
  cases fails with
  | unexpected unknown closesBlock =>
      by_cases ended : token.kind = .endOfInput
      · exact step_of_ended ended
      · exact step_of_notMem (unknown ended) closesBlock
  | missingText known needsText missing => exact step_of_missingText known needsText missing
  | duplicateParameter kind carried repeated =>
      simp only [step, kind, bind_eq_error_iff, requireText_eq_ok_iff, any_name_iff]
      exact .inr ⟨_, carried, if_pos repeated⟩
  | nestingTooDeep start deep =>
      exact step_of_checkStart_eq_error start
        (Routine.checkStart_eq_error_iff.mpr (.inl ⟨deep, rfl⟩))
  | @startBehindRoot header root start positive =>
      exact step_of_checkStart_eq_error start
        (Routine.checkStart_eq_error_iff.mpr (.inr ⟨positive, ⟨root, rfl⟩, rfl⟩))
  | strayClose closing => exact step_of_closing closing
  | closeBehindRoot closing =>
      simp only [step, closing]
      rfl
  | emptyRoutine finish => simp only [step, finish]
  | invalidDate kind carried unread =>
      simp only [step, kind, bind_eq_error_iff, requireText_eq_ok_iff]
      refine .inr ⟨_, carried, ?_⟩
      rw [unread]
  | undeclaredParameter kind carried undeclared =>
      simp only [step, kind, bind_eq_error_iff, requireText_eq_ok_iff, any_name_iff]
      exact .inr ⟨_, carried, if_neg undeclared⟩
  | testBehindRoot kind finished =>
      simp only [step, kind, finished]
      rfl

theorem transition_of_step {next : Progress} (stepped : progress.step limit token = .ok next) :
    Transition limit token progress next := by
  have outcome := outcome_step limit token progress
  rw [stepped] at outcome
  cases outcome with
  | taken transition => exact transition

theorem fails_of_step {rejection : Rejection}
    (rejected : progress.step limit token = .error rejection) :
    Fails limit token progress rejection := by
  have outcome := outcome_step limit token progress
  rw [rejected] at outcome
  cases outcome with
  | failed fails => exact fails

theorem step_eq_ok_iff {limit : Nat} {token : Token} {progress next : Progress} :
    progress.step limit token = .ok next ↔ Transition limit token progress next :=
  ⟨transition_of_step, step_of_transition⟩

theorem step_eq_error_iff {rejection : Rejection} :
    progress.step limit token = .error rejection ↔ Fails limit token progress rejection :=
  ⟨fails_of_step, step_of_fails⟩

theorem finish_eq_ok_iff {progress : Progress} {token : Token} {script : Script} :
    progress.finish token = .ok script ↔ progress = .complete script := by
  cases progress <;> simp [finish]

/-- Whether taking tokens one after the other leads from one progress to another. -/
inductive Leads (limit : Nat) : Progress → List Token → Progress → Prop where
  | nil {progress : Progress} : Leads limit progress [] progress
  | cons {progress middle after : Progress} {token : Token} {tokens : List Token} :
      Transition limit token progress middle → Leads limit middle tokens after →
      Leads limit progress (token :: tokens) after

theorem Leads.unique {limit : Nat} {progress after other : Progress} {tokens : List Token}
    (leads : Leads limit progress tokens after) (otherLeads : Leads limit progress tokens other) :
    after = other := by
  induction leads with
  | nil =>
      cases otherLeads
      rfl
  | cons transition _ inductionHypothesis =>
      cases otherLeads with
      | cons otherTransition continues =>
          have stepped := step_of_transition transition
          rw [step_of_transition otherTransition] at stepped
          rw [Except.ok.inj stepped] at continues
          exact inductionHypothesis continues

variable {σ : Type} [TokenSource σ]

/-- A source is read to the end exactly if its tokens before the end of input lead to a complete
script. -/
theorem run_eq_ok_iff {limit : Nat} {progress : Progress} {source : σ} {script : Script} :
    progress.run limit source = .ok script ↔
      Leads limit progress (sentence (TokenSource.toList source)) (.complete script) := by
  induction source using TokenSource.induction generalizing progress with
  | ended source ended =>
      rw [run_of_ended ended, TokenSource.toList_of_ended ended, sentence_of_ended ended,
        finish_eq_ok_iff]
      constructor
      · rintro rfl
        exact .nil
      · intro leads
        cases leads
        rfl
  | token source unfinished inductionHypothesis =>
      rw [run_of_token unfinished, TokenSource.toList_of_token unfinished,
        sentence_of_token unfinished]
      apply bind_eq_ok_iff.trans
      constructor
      · rintro ⟨middle, stepped, ran⟩
        exact .cons (step_eq_ok_iff.mp stepped) (inductionHypothesis.mp ran)
      · intro leads
        cases leads with
        | cons transition continues =>
            exact ⟨_, step_eq_ok_iff.mpr transition, inductionHypothesis.mpr continues⟩

end Progress

theorem TokenQueue.sentence_toList (queue : TokenQueue) :
    sentence (TokenSource.toList queue) = sentence queue.pending := by
  induction queue using TokenSource.induction with
  | ended queue ended =>
      rw [TokenSource.toList_of_ended ended, sentence_of_ended ended]
      rcases queue with ⟨_ | ⟨token, pending⟩, last⟩
      · rfl
      · exact (sentence_of_ended ended pending).symm
  | token queue unfinished inductionHypothesis =>
      rw [TokenSource.toList_of_token unfinished, sentence_of_token unfinished,
        inductionHypothesis]
      rcases queue with ⟨_ | ⟨token, pending⟩, last⟩
      · exact absurd rfl unfinished
      · have kind : token.kind ≠ .endOfInput := unfinished
        have following : (TokenQueue.mk (token :: pending) last).next =
            (token, ⟨pending, token.position⟩) := by
          simp [next, kind]
        change _ :: sentence (TokenQueue.mk (token :: pending) last).next.2.pending = _
        rw [following]
        exact (sentence_of_token kind pending).symm

end Cohort
