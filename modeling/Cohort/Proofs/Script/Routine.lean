import Cohort.Proofs.Script.Turn

/-!
# Turns and derivations

Taking turns from an empty routine to a finished one is possible for the tokens that derive a
condition, and only for them.  What open blocks still ask of the tokens is `Closes`; what may
stand in them is `Permitted`.
-/

namespace Cohort

/-- Whether a condition may stand inside a number of blocks. -/
structure Condition.Permitted (limit : Nat) (declared : List String) (above : Nat)
    (condition : Condition Date) : Prop where
  depth : above + condition.depth ≤ limit
  references : condition.RefersOnlyTo declared

theorem Condition.permitted_all_iff {limit above : Nat} {declared : List String}
    {children : List (Condition Date)} :
    (all children).Permitted limit declared above ↔
      above < limit ∧ ∀ child ∈ children, child.Permitted limit declared (above + 1) := by
  have levels : above + (all children).depth ≤ limit ↔
      above < limit ∧ ∀ child ∈ children, above + 1 + child.depth ≤ limit := by
    have below : (all children).depth ≤ limit - (above + 1) + 1 ↔
        ∀ child ∈ children, child.depth ≤ limit - (above + 1) := depth_all_le_succ_iff
    have positive := depth_pos (all children)
    constructor
    · intro fits
      refine ⟨by omega, fun child membership => ?_⟩
      have smaller := below.mp (by omega) child membership
      omega
    · rintro ⟨room, fits⟩
      have bound := below.mpr fun child membership => Nat.le_sub_of_add_le
        (Nat.add_comm _ _ ▸ fits child membership)
      omega
  constructor
  · rintro ⟨depth, references⟩
    rw [levels] at depth
    rw [refersOnlyTo_all_iff] at references
    exact ⟨depth.1, fun child membership =>
      ⟨depth.2 child membership, references child membership⟩⟩
  · rintro ⟨room, children⟩
    refine ⟨levels.mpr ⟨room, ?_⟩, refersOnlyTo_all_iff.mpr ?_⟩
    · exact fun child membership => (children child membership).depth
    · exact fun child membership => (children child membership).references

theorem Condition.permitted_test_iff {limit above : Nat} {declared : List String} {kind : Test}
    {value : Value Date} :
    (test kind value).Permitted limit declared above ↔
      above < limit ∧ value.RefersOnlyTo declared := by
  constructor
  · rintro ⟨depth, references⟩
    exact ⟨depth, refersOnlyTo_test_iff.mp references⟩
  · rintro ⟨room, references⟩
    exact ⟨room, refersOnlyTo_test_iff.mpr references⟩

namespace Routine

variable {limit : Nat} {declared : List String}

/-- What is still to come of a routine: the rest of every open block, from the innermost on, until
the whole condition is finished. -/
inductive Closes : Routine → List Token → Condition Date → Prop where
  | finished {root : Condition Date} : Closes ⟨[], some root⟩ [] root
  | whole {tokens : List Token} {root : Condition Date} :
      DerivesCondition tokens root → Closes ⟨[], none⟩ tokens root
  | inside {block more : List (Condition Date)} {outer : List (List (Condition Date))}
      {root : Option (Condition Date)} {body rest : List Token} {closing : Token}
      {next : Routine} {result : Condition Date} :
      DerivesConditions body more → closing.kind = .mark .rightBrace →
      Attaches (.all (block.reverse ++ more)) ⟨outer, root⟩ next → Closes next rest result →
      Closes ⟨block :: outer, root⟩ (body ++ closing :: rest) result

theorem Closes.of_attaches {condition result : Condition Date} {routine next : Routine}
    {tokens rest : List Token} (derives : DerivesCondition tokens condition)
    (attaches : Attaches condition routine next) (closes : Closes next rest result) :
    Closes routine (tokens ++ rest) result := by
  cases attaches with
  | whole =>
      -- A finished routine asks for nothing more.
      cases closes
      rw [List.append_nil]
      exact .whole derives
  | inside block outer root =>
      cases closes with
      | inside derivesMore closing attachesBlock closesRest =>
          rw [List.reverse_cons, List.append_assoc] at attachesBlock
          rw [← List.append_assoc]
          exact .inside (.cons derives derivesMore) closing attachesBlock closesRest

theorem Closes.of_turn {routine next : Routine} {first rest : List Token}
    {result : Condition Date} (turn : Turn limit declared routine first next)
    (closes : Closes next rest result) : Closes routine (first ++ rest) result := by
  cases turn with
  | test derives derivesValue semicolon admits references attaches =>
      exact .of_attaches (.test derives derivesValue semicolon) attaches closes
  | closeBlock closing attaches =>
      exact .inside .nil closing (by rwa [List.append_nil]) closes
  | openBlock word opening admits =>
      cases closes with
      | inside derivesBody closing attaches closesRest =>
          have derives := DerivesCondition.all word opening derivesBody closing
          have whole := Closes.of_attaches derives attaches closesRest
          simpa using whole

theorem Closes.of_turns {routine after : Routine} {body rest : List Token}
    {result : Condition Date} (turns : Turns limit declared routine body after)
    (closes : Closes after rest result) : Closes routine (body ++ rest) result := by
  induction turns with
  | nil => exact closes
  | cons turn _ inductionHypothesis =>
      rw [List.append_assoc]
      exact .of_turn turn (inductionHypothesis closes)

/-- Whether everything that has been read of a routine may stand where it does. -/
inductive Permitted (limit : Nat) (declared : List String) : Routine → Prop where
  | empty : Permitted limit declared ⟨[], none⟩
  | finished {root : Condition Date} :
      root.Permitted limit declared 0 → Permitted limit declared ⟨[], some root⟩
  | inside {block : List (Condition Date)} {outer : List (List (Condition Date))}
      {root : Option (Condition Date)} :
      (Condition.all block).Permitted limit declared outer.length →
      Permitted limit declared ⟨outer, root⟩ → Permitted limit declared ⟨block :: outer, root⟩

theorem Permitted.attach {condition : Condition Date} {routine next : Routine}
    (permitted : routine.Permitted limit declared)
    (conditionPermitted : condition.Permitted limit declared routine.openBlocks.length)
    (attaches : Attaches condition routine next) : next.Permitted limit declared := by
  cases attaches with
  | whole => exact .finished conditionPermitted
  | inside block outer root =>
      cases permitted with
      | inside blockPermitted outerPermitted =>
          refine .inside ?_ outerPermitted
          rw [Condition.permitted_all_iff] at blockPermitted
          apply Condition.permitted_all_iff.mpr
          refine ⟨blockPermitted.1, ?_⟩
          rw [List.forall_mem_cons]
          exact ⟨conditionPermitted, blockPermitted.2⟩

theorem Permitted.openBlock {routine : Routine} (permitted : routine.Permitted limit declared)
    (admits : routine.Admits limit) : routine.openBlock.Permitted limit declared := by
  refine .inside ?_ permitted
  apply Condition.permitted_all_iff.mpr
  exact ⟨admits.depth, List.forall_mem_nil _⟩

theorem Permitted.closeBlock {block : List (Condition Date)}
    {outer : List (List (Condition Date))} {root : Option (Condition Date)} {next : Routine}
    (permitted : Permitted limit declared ⟨block :: outer, root⟩)
    (attaches : Attaches (.all block.reverse) ⟨outer, root⟩ next) :
    next.Permitted limit declared := by
  cases permitted with
  | inside blockPermitted outerPermitted =>
      refine outerPermitted.attach ?_ attaches
      rw [Condition.permitted_all_iff] at blockPermitted ⊢
      simpa using blockPermitted

theorem Permitted.turn {routine next : Routine} {tokens : List Token}
    (permitted : routine.Permitted limit declared)
    (turn : Turn limit declared routine tokens next) : next.Permitted limit declared := by
  cases turn with
  | openBlock word opening admits => exact permitted.openBlock admits
  | test derives derivesValue semicolon admits references attaches =>
      refine permitted.attach ?_ attaches
      apply Condition.permitted_test_iff.mpr
      exact ⟨admits.depth, references⟩
  | closeBlock closing attaches => exact permitted.closeBlock attaches

theorem Permitted.turns {routine after : Routine} {tokens : List Token}
    (permitted : routine.Permitted limit declared)
    (turns : Turns limit declared routine tokens after) : after.Permitted limit declared := by
  induction turns with
  | nil => exact permitted
  | cons turn _ inductionHypothesis => exact inductionHypothesis (permitted.turn turn)

theorem Admits.of_attaches {condition : Condition Date} {routine next : Routine}
    (room : routine.openBlocks.length < limit) (attaches : Attaches condition routine next) :
    routine.Admits limit := by
  refine ⟨room, ?_⟩
  cases attaches with
  | whole => exact fun _ => rfl
  | inside block outer root => exact fun impossible => nomatch impossible

mutual

/-- The tokens that derive a condition are taken in turns wherever the condition may stand. -/
theorem turns_of_derives {tokens : List Token} {condition : Condition Date}
    (derives : DerivesCondition tokens condition) {routine next : Routine}
    (permitted : condition.Permitted limit declared routine.openBlocks.length)
    (attaches : Attaches condition routine next) : Turns limit declared routine tokens next := by
  cases derives with
  | test derivesStart derivesValue semicolon =>
      rw [Condition.permitted_test_iff] at permitted
      exact .single (.test derivesStart derivesValue semicolon (.of_attaches permitted.1 attaches)
        permitted.2 attaches)
  | @all word opening closing body children wordKind openingKind derivesBody closingKind =>
      rw [Condition.permitted_all_iff] at permitted
      -- The blocks that are open already stay below the new one until it is closed.
      have opened : Turn limit declared routine [word, opening] routine.openBlock :=
        .openBlock wordKind openingKind (.of_attaches permitted.1 attaches)
      have inside : Turns limit declared routine.openBlock body
          ⟨(children.reverse ++ []) :: routine.openBlocks, routine.root⟩ :=
        turns_of_derivesAll derivesBody permitted.2
      have closed : Turn limit declared
          ⟨(children.reverse ++ []) :: routine.openBlocks, routine.root⟩ [closing] next :=
        .closeBlock closingKind (by simpa using attaches)
      exact .cons opened (inside.append (.single closed))

theorem turns_of_derivesAll {tokens : List Token} {children : List (Condition Date)}
    (derives : DerivesConditions tokens children) {block : List (Condition Date)}
    {outer : List (List (Condition Date))} {root : Option (Condition Date)}
    (permitted : ∀ child ∈ children, child.Permitted limit declared (outer.length + 1)) :
    Turns limit declared ⟨block :: outer, root⟩ tokens
      ⟨(children.reverse ++ block) :: outer, root⟩ := by
  cases derives with
  | nil => exact .nil
  | @cons first rest child siblings derivesChild derivesSiblings =>
      rw [List.forall_mem_cons] at permitted
      have head : Turns limit declared ⟨block :: outer, root⟩ first
          ⟨(child :: block) :: outer, root⟩ :=
        turns_of_derives derivesChild permitted.1 (.inside block outer root)
      have tail : Turns limit declared ⟨(child :: block) :: outer, root⟩ rest
          ⟨(siblings.reverse ++ child :: block) :: outer, root⟩ :=
        turns_of_derivesAll derivesSiblings permitted.2
      rw [List.reverse_cons, List.append_assoc]
      exact head.append tail

end

theorem turns_empty_iff {tokens : List Token} {root : Condition Date} :
    Turns limit declared .empty tokens ⟨[], some root⟩ ↔
      DerivesCondition tokens root ∧ root.Permitted limit declared 0 := by
  constructor
  · intro turns
    refine ⟨?_, ?_⟩
    · have closes := Closes.of_turns turns .finished
      rw [List.append_nil] at closes
      cases closes
      assumption
    · have permitted := Permitted.turns .empty turns
      cases permitted
      assumption
  · rintro ⟨derives, permitted⟩
    exact turns_of_derives derives permitted .whole

end Routine

end Cohort
