import Cohort.Proofs.Script.Transition

/-!
# Turns of reading

A routine is read in turns: each opens a block, closes one, or takes a whole test.  Reading to the
end is the same as reading the parameters and then taking turns until the routine ends.
-/

namespace Cohort

namespace Routine

/-- One turn, with the tokens that it takes. -/
inductive Turn (limit : Nat) (declared : List String) :
    Routine → List Token → Routine → Prop where
  | openBlock {word opening : Token} {routine : Routine} :
      word.kind = .keyword .and → opening.kind = .mark .leftBrace → routine.Admits limit →
      Turn limit declared routine [word, opening] routine.openBlock
  | test {start operand : List Token} {semicolon : Token} {kind : Test} {value : Value Date}
      {routine next : Routine} :
      DerivesTest start kind → DerivesValue operand value →
      semicolon.kind = .mark .semicolon → routine.Admits limit →
      value.RefersOnlyTo declared → routine.Attaches (.test kind value) next →
      Turn limit declared routine (start ++ (operand ++ [semicolon])) next
  | closeBlock {closing : Token} {block : List (Condition Date)}
      {outer : List (List (Condition Date))} {root : Option (Condition Date)} {next : Routine} :
      closing.kind = .mark .rightBrace →
      Attaches (.all block.reverse) ⟨outer, root⟩ next →
      Turn limit declared ⟨block :: outer, root⟩ [closing] next

inductive Turns (limit : Nat) (declared : List String) :
    Routine → List Token → Routine → Prop where
  | nil {routine : Routine} : Turns limit declared routine [] routine
  | cons {routine middle after : Routine} {first rest : List Token} :
      Turn limit declared routine first middle → Turns limit declared middle rest after →
      Turns limit declared routine (first ++ rest) after

theorem Turns.append {limit : Nat} {declared : List String} {routine middle after : Routine}
    {first second : List Token} (turns : Turns limit declared routine first middle)
    (continues : Turns limit declared middle second after) :
    Turns limit declared routine (first ++ second) after := by
  induction turns with
  | nil => exact continues
  | cons turn _ inductionHypothesis =>
      rw [List.append_assoc]
      exact .cons turn (inductionHypothesis continues)

theorem Turns.single {limit : Nat} {declared : List String} {routine after : Routine}
    {tokens : List Token} (turn : Turn limit declared routine tokens after) :
    Turns limit declared routine tokens after := by
  have turns := Turns.cons turn .nil
  rwa [List.append_nil] at turns

end Routine

namespace Progress

variable {limit : Nat}

theorem leads_value_iff {clause : Clause} {test : Test} {tokens : List Token} {script : Script} :
    Leads limit (.value clause test) tokens (.complete script) ↔
      ∃ operand value semicolon next rest,
        DerivesValue operand value ∧ semicolon.kind = .mark .semicolon ∧
        value.RefersOnlyTo (clause.header.parameters.map Declaration.name) ∧
        clause.routine.Attaches (.test test value) next ∧
        tokens = operand ++ semicolon :: rest ∧
        Leads limit (.conditions clause.header next) rest (.complete script) := by
  constructor
  · intro leads
    cases leads with | cons announced leads => ?_
    cases announced with
    | announceDate word =>
        cases leads with | cons second leads => ?_
        cases second with | dateColon colon => ?_
        cases leads with | cons third leads => ?_
        cases third with | date literal carried found => ?_
        cases leads with | cons last leads => ?_
        cases last with | clauseEnd semicolon attaches => ?_
        refine ⟨_, _, _, _, _, .date word colon literal carried found, semicolon, ?_, attaches,
          rfl, leads⟩
        intro name same
        contradiction
    | announceReference word =>
        cases leads with | cons second leads => ?_
        cases second with | referenceColon colon => ?_
        cases leads with | cons third leads => ?_
        cases third with | reference identifier carried declared => ?_
        cases leads with | cons last leads => ?_
        cases last with | clauseEnd semicolon attaches => ?_
        refine ⟨_, _, _, _, _, .reference word colon identifier carried, semicolon, ?_, attaches,
          rfl, leads⟩
        intro name same
        rwa [← Value.reference.inj same]
  · rintro ⟨operand, value, semicolon, next, rest, derives, kind, references, attaches, rfl,
      leads⟩
    cases derives with
    | date word colon literal carried found =>
        exact .cons (.announceDate word) (.cons (.dateColon colon)
          (.cons (.date literal carried found) (.cons (.clauseEnd kind attaches) leads)))
    | reference word colon identifier carried =>
        exact .cons (.announceReference word) (.cons (.referenceColon colon)
          (.cons (.reference identifier carried (references _ rfl))
            (.cons (.clauseEnd kind attaches) leads)))

theorem leads_of_turn {header : Header} {routine next : Routine} {first rest : List Token}
    {script : Script}
    (turn : Routine.Turn limit (header.parameters.map Declaration.name) routine first next)
    (leads : Leads limit (.conditions header next) rest (.complete script)) :
    Leads limit (.conditions header routine) (first ++ rest) (.complete script) := by
  cases turn with
  | openBlock word opening admits =>
      exact .cons (.announceBlock word admits) (.cons (.openBlock opening) leads)
  | closeBlock closing attaches => exact .cons (.closeBlock closing attaches) leads
  | @test start operand semicolon kind value _ _ derives derivesValue semicolonKind admits
      references attaches =>
      have continues : ∀ position, Leads limit (.value ⟨header, routine, position⟩ kind)
          (operand ++ semicolon :: rest) (.complete script) := fun position =>
        leads_value_iff.mpr ⟨operand, value, semicolon, next, rest, derivesValue, semicolonKind,
          references, attaches, rfl, leads⟩
      rw [List.append_assoc, List.append_assoc]
      cases derives with
      | bornAfter fact relation =>
          exact .cons (.announceBorn fact admits) (.cons (.bornAfter relation) (continues _))
      | bornBefore fact relation =>
          exact .cons (.announceBorn fact admits) (.cons (.bornBefore relation) (continues _))
      | speciesIs fact relation =>
          exact .cons (.announceSpecies fact admits) (.cons (.speciesIs relation) (continues _))

theorem leads_of_turns {header : Header} {routine next : Routine} {body rest : List Token}
    {script : Script}
    (turns : Routine.Turns limit (header.parameters.map Declaration.name) routine body next)
    (leads : Leads limit (.conditions header next) rest (.complete script)) :
    Leads limit (.conditions header routine) (body ++ rest) (.complete script) := by
  induction turns with
  | nil => exact leads
  | cons turn _ inductionHypothesis =>
      rw [List.append_assoc]
      exact leads_of_turn turn (inductionHypothesis leads)

theorem turn_of_leads_value {header : Header} {routine : Routine} {position : Position}
    {start tokens : List Token} {kind : Test} {script : Script} (derives : DerivesTest start kind)
    (admits : routine.Admits limit)
    (leads : Leads limit (.value ⟨header, routine, position⟩ kind) tokens (.complete script)) :
    ∃ operand next rest,
      Routine.Turn limit (header.parameters.map Declaration.name) routine (start ++ operand) next ∧
      tokens = operand ++ rest ∧ rest.length ≤ tokens.length ∧
      Leads limit (.conditions header next) rest (.complete script) := by
  obtain ⟨operand, value, semicolon, next, rest, derivesValue, semicolonKind, references, attaches,
    rfl, continues⟩ := leads_value_iff.mp leads
  exact ⟨operand ++ [semicolon], next, rest,
    .test derives derivesValue semicolonKind admits references attaches, by simp,
    by simp only [List.length_append, List.length_cons]; omega, continues⟩

theorem turn_of_leads {header : Header} {routine : Routine} {tokens : List Token}
    {script : Script}
    (leads : Leads limit (.conditions header routine) tokens (.complete script)) :
    (∃ finish root, finish.kind = .keyword .finish ∧ routine = ⟨[], some root⟩ ∧
      tokens = [finish] ∧ script = ⟨header.name, header.parameters, root⟩) ∨
    ∃ first next rest,
      Routine.Turn limit (header.parameters.map Declaration.name) routine first next ∧
      tokens = first ++ rest ∧ rest.length < tokens.length ∧
      Leads limit (.conditions header next) rest (.complete script) := by
  cases leads with | cons first leads => ?_
  cases first with
  | routineEnd finish =>
      apply Or.inl
      cases leads with
      | nil => exact ⟨_, _, finish, rfl, rfl, rfl⟩
      | cons impossible => cases impossible
  | closeBlock closing attaches =>
      apply Or.inr
      exact ⟨_, _, _, .closeBlock closing attaches, rfl, Nat.lt_succ_self _, leads⟩
  | announceBlock word admits =>
      apply Or.inr
      cases leads with | cons second leads => ?_
      cases second with | openBlock opening => ?_
      exact ⟨_, _, _, .openBlock word opening admits, rfl,
        Nat.lt_succ_of_le (Nat.le_succ _), leads⟩
  | announceBorn fact admits =>
      apply Or.inr
      cases leads with | cons second leads => ?_
      cases second with
      | bornAfter relation =>
          obtain ⟨operand, next, rest, turn, rfl, shorter, continues⟩ :=
            turn_of_leads_value (.bornAfter fact relation) admits leads
          exact ⟨_, next, rest, turn, rfl, Nat.lt_succ_of_le (Nat.le_succ_of_le shorter),
            continues⟩
      | bornBefore relation =>
          obtain ⟨operand, next, rest, turn, rfl, shorter, continues⟩ :=
            turn_of_leads_value (.bornBefore fact relation) admits leads
          exact ⟨_, next, rest, turn, rfl, Nat.lt_succ_of_le (Nat.le_succ_of_le shorter),
            continues⟩
  | announceSpecies fact admits =>
      apply Or.inr
      cases leads with | cons second leads => ?_
      cases second with | speciesIs relation => ?_
      obtain ⟨operand, next, rest, turn, rfl, shorter, continues⟩ :=
        turn_of_leads_value (.speciesIs fact relation) admits leads
      exact ⟨_, next, rest, turn, rfl, Nat.lt_succ_of_le (Nat.le_succ_of_le shorter), continues⟩

theorem turns_of_leads {header : Header} {routine : Routine} {tokens : List Token}
    {script : Script}
    (leads : Leads limit (.conditions header routine) tokens (.complete script)) :
    ∃ body finish root,
      Routine.Turns limit (header.parameters.map Declaration.name) routine body ⟨[], some root⟩ ∧
      finish.kind = .keyword .finish ∧ tokens = body ++ [finish] ∧
      script = ⟨header.name, header.parameters, root⟩ := by
  -- Every turn takes a token at least, so the tokens run out.
  rcases turn_of_leads leads with ⟨finish, root, ended, rfl, rfl, rfl⟩ |
    ⟨first, next, rest, turn, split, shorter, continues⟩
  · exact ⟨[], finish, root, .nil, ended, rfl, rfl⟩
  · obtain ⟨body, finish, root, turns, ended, rest, whole⟩ := turns_of_leads continues
    refine ⟨first ++ body, finish, root, .cons turn turns, ended, ?_, whole⟩
    rw [split, rest, List.append_assoc]
termination_by tokens.length

/-- Reading a routine to its end is taking turns until the whole condition is finished. -/
theorem leads_conditions_iff {header : Header} {routine : Routine} {tokens : List Token}
    {script : Script} :
    Leads limit (.conditions header routine) tokens (.complete script) ↔
      ∃ body finish root,
        Routine.Turns limit (header.parameters.map Declaration.name) routine body
          ⟨[], some root⟩ ∧
        finish.kind = .keyword .finish ∧ tokens = body ++ [finish] ∧
        script = ⟨header.name, header.parameters, root⟩ := by
  constructor
  · exact turns_of_leads
  · rintro ⟨body, finish, root, turns, ended, rfl, rfl⟩
    exact leads_of_turns turns (.cons (.routineEnd ended) .nil)

end Progress

end Cohort
