import Cohort.Proofs.Script.Routine
import Mathlib.Data.List.Nodup

/-!
# Which tokens are scripts

Reading accepts exactly the tokens that derive a script, if nothing else is wrong with that
script, and the same tokens never derive two scripts.
-/

namespace Cohort

namespace Progress

variable {limit : Nat}

theorem leads_routineHeading_iff {header : Header} {tokens : List Token} {script : Script} :
    Leads limit (.routineHeading header) tokens (.complete script) ↔
      ∃ root, DerivesRoutine tokens root ∧
        root.Permitted limit (header.parameters.map Declaration.name) 0 ∧
        script = ⟨header.name, header.parameters, root⟩ := by
  constructor
  · intro leads
    cases leads with | cons first leads => ?_
    cases first with | routineHeading heading => ?_
    obtain ⟨body, finish, root, turns, ended, rfl, rfl⟩ := leads_conditions_iff.mp leads
    obtain ⟨derives, permitted⟩ := Routine.turns_empty_iff.mp turns
    exact ⟨root, .intro heading derives ended, permitted, rfl⟩
  · rintro ⟨root, ⟨heading, derives, ended⟩, permitted, rfl⟩
    have turns := Routine.turns_empty_iff.mpr ⟨derives, permitted⟩
    exact .cons (.routineHeading heading)
      (leads_conditions_iff.mpr ⟨_, _, root, turns, ended, rfl, rfl⟩)

theorem declarations_of_leads {name : String} {declared : List Declaration} {tokens : List Token}
    {script : Script} (distinct : (declared.map Declaration.name).Nodup)
    (leads : Leads limit (.declarations name declared) tokens (.complete script)) :
    ∃ words parameters finish rest,
      DerivesDeclarations words parameters ∧
      ((declared.reverse ++ parameters).map Declaration.name).Nodup ∧
      finish.kind = .keyword .finish ∧ tokens = words ++ finish :: rest ∧
      Leads limit (.routineHeading ⟨name, declared.reverse ++ parameters⟩) rest
        (.complete script) := by
  cases leads with | cons first leads => ?_
  cases first with
  | declarationsEnd ended =>
      refine ⟨[], [], _, _, .nil, ?_, ended, rfl, by rwa [List.append_nil]⟩
      rwa [List.append_nil, List.map_reverse, List.nodup_reverse]
  | declaration word =>
      cases leads with | cons second leads => ?_
      cases second with | @parameterName _ parameter _ identifier carried fresh => ?_
      have distinctMore : ((⟨parameter, .species⟩ :: declared).map Declaration.name).Nodup :=
        List.nodup_cons.mpr ⟨fresh, distinct⟩
      obtain ⟨words, parameters, finish, rest, derives, distinctAll, ended, rfl, continues⟩ :=
        declarations_of_leads distinctMore leads
      rw [List.reverse_cons, List.append_assoc] at distinctAll continues
      exact ⟨_, _, finish, rest, .cons word identifier carried derives, distinctAll, ended, rfl,
        continues⟩
termination_by tokens.length

theorem leads_of_declarations {name : String} {declared parameters : List Declaration}
    {words rest : List Token} {finish : Token} {script : Script}
    (derives : DerivesDeclarations words parameters)
    (distinct : ((declared.reverse ++ parameters).map Declaration.name).Nodup)
    (ended : finish.kind = .keyword .finish)
    (leads : Leads limit (.routineHeading ⟨name, declared.reverse ++ parameters⟩) rest
      (.complete script)) :
    Leads limit (.declarations name declared) (words ++ finish :: rest) (.complete script) := by
  induction derives generalizing declared with
  | nil =>
      rw [List.append_nil] at leads
      exact .cons (.declarationsEnd ended) leads
  | @cons _ _ _ parameter later word identifier carried _ inductionHypothesis =>
      have fresh : parameter ∉ declared.map Declaration.name := by
        intro membership
        rw [List.map_append, List.map_cons, List.nodup_middle, List.nodup_cons] at distinct
        exact distinct.1 (List.mem_append_left _ (by simpa using membership))
      have shifted : declared.reverse ++ ⟨parameter, .species⟩ :: later =
          (⟨parameter, .species⟩ :: declared).reverse ++ later := by simp
      rw [shifted] at distinct leads
      exact .cons (.declaration word) (.cons (.parameterName identifier carried fresh)
        (inductionHypothesis distinct leads))

theorem leads_start_iff {tokens : List Token} {script : Script} :
    Leads limit .start tokens (.complete script) ↔
      DerivesScript tokens script ∧ script.Scoped limit := by
  constructor
  · intro leads
    cases leads with | cons first leads => ?_
    cases first with | name word => ?_
    cases leads with | cons second leads => ?_
    cases second with | scriptName title carried => ?_
    cases leads with | cons third leads => ?_
    cases third with | parameterList heading => ?_
    have distinctNone : (List.map Declaration.name []).Nodup := List.nodup_nil
    obtain ⟨words, parameters, finish, rest, derives, distinct, ended, rfl, continues⟩ :=
      declarations_of_leads distinctNone leads
    obtain ⟨root, derivesRoutine, permitted, rfl⟩ := leads_routineHeading_iff.mp continues
    refine ⟨.intro word title carried heading derives ended derivesRoutine, distinct,
      permitted.references, ?_⟩
    simpa using permitted.depth
  · rintro ⟨derives, wellScoped⟩
    cases derives with
    | @intro _ _ _ _ name _ _ parameters root word title carried heading declared ended routine =>
        have permitted : root.Permitted limit (parameters.map Declaration.name) 0 :=
          ⟨by simpa using wellScoped.depth, wellScoped.references⟩
        have routineLeads : Leads limit (.routineHeading ⟨name, parameters⟩) _
            (.complete ⟨name, parameters, root⟩) :=
          leads_routineHeading_iff.mpr ⟨root, routine, permitted, rfl⟩
        have declarationsLead : Leads limit (.declarations name []) _
            (.complete ⟨name, parameters, root⟩) :=
          leads_of_declarations declared wellScoped.distinctNames ended routineLeads
        exact .cons (.name word) (.cons (.scriptName title carried)
          (.cons (.parameterList heading) declarationsLead))

end Progress

def Value.reference? {δ : Type} : Value δ → Option String
  | .reference name => some name
  | .date _ | .species _ => none

theorem Condition.permitted_of_bounds {limit : Nat} {leaves : List (Test × Value Date)}
    {condition : Condition Date} (levels : condition.depth ≤ limit)
    (included : condition.tests ⊆ leaves) :
    condition.Permitted limit (leaves.filterMap fun leaf => leaf.2.reference?) 0 := by
  refine ⟨by simpa using levels, ?_⟩
  intro leaf membership name same
  apply List.mem_filterMap.mpr
  exact ⟨leaf, included membership, by rw [same]; rfl⟩

theorem DerivesRoutine.unique {tokens : List Token} {first second : Condition Date}
    (derives : DerivesRoutine tokens first) (otherDerives : DerivesRoutine tokens second) :
    first = second := by
  -- With these limits and names both conditions could be read, but the machine reads only one.
  let limit := max first.depth second.depth
  let names := (first.tests ++ second.tests).filterMap fun leaf => leaf.2.reference?
  let header : Header := ⟨"", names.map fun name => ⟨name, .species⟩⟩
  have declared : header.parameters.map Declaration.name = names := by
    simp [header, Function.comp_def]
  have permitted : first.Permitted limit (header.parameters.map Declaration.name) 0 := by
    rw [declared]
    apply Condition.permitted_of_bounds
    · exact Nat.le_max_left _ _
    · exact List.subset_append_left _ _
  have otherPermitted : second.Permitted limit (header.parameters.map Declaration.name) 0 := by
    rw [declared]
    apply Condition.permitted_of_bounds
    · exact Nat.le_max_right _ _
    · exact List.subset_append_right _ _
  have leads := Progress.leads_routineHeading_iff.mpr ⟨first, derives, permitted, rfl⟩
  have otherLeads :=
    Progress.leads_routineHeading_iff.mpr ⟨second, otherDerives, otherPermitted, rfl⟩
  exact congrArg Script.root (Progress.complete.inj (leads.unique otherLeads))

theorem DerivesScript.eq_of_tokens_eq {tokens others : List Token} {first second : Script}
    (derives : DerivesScript tokens first) (otherDerives : DerivesScript others second)
    (same : tokens = others) : first = second := by
  obtain ⟨word, title, carried, heading, declared, finish, routine⟩ := derives
  obtain ⟨otherWord, otherTitle, otherCarried, otherHeading, otherDeclared, otherFinish,
    otherRoutine⟩ := otherDerives
  obtain ⟨titles, afterTitles⟩ := List.cons.inj (List.cons.inj same).2
  obtain ⟨parameters, routines⟩ :=
    declared.eq_of_append_finish otherDeclared finish otherFinish (List.cons.inj afterTitles).2
  rw [titles, otherCarried] at carried
  rw [routines] at routine
  rw [Option.some.inj carried, parameters, routine.unique otherRoutine]

namespace Script

theorem parse_source_eq_ok_iff {σ : Type} [TokenSource σ] {source : σ} {maxDepth : Nat}
    {script : Script} :
    parse source maxDepth = .ok script ↔
      DerivesScript (sentence (TokenSource.toList source)) script ∧ script.Scoped maxDepth :=
  Progress.run_eq_ok_iff.trans Progress.leads_start_iff

/-- Reading accepts exactly the tokens that derive a well-scoped script, and gives the one script
that they derive. -/
theorem parse_eq_ok_iff (tokens : List Token) (maxDepth : Nat) :
    (∀ script, parse (TokenQueue.ofList tokens) maxDepth = .ok script ↔
      DerivesScript (sentence tokens) script ∧ script.Scoped maxDepth) ∧
    ∀ first second, DerivesScript (sentence tokens) first →
      DerivesScript (sentence tokens) second → first = second := by
  constructor
  · intro script
    rw [parse_source_eq_ok_iff, TokenQueue.sentence_toList]
    rfl
  · intro first second derives otherDerives
    exact derives.eq_of_tokens_eq otherDerives rfl

end Script

end Cohort
