import Cohort.Proofs.Script.Completion

/-!
# The stack of open blocks

While a routine is read, its open blocks and its whole condition never stand beside each other,
and every finished condition is within the limit on nesting, counted from the block that holds it.
So a finished condition always has a place, and a second whole condition is refused at its first
token.
-/

namespace Cohort

namespace Routine

variable {limit : Nat} {declared : List String}

/-- Whether the finished conditions of a routine stand where they may.  Open blocks are counted
from the outermost, which has level 0. -/
structure Sound (limit : Nat) (declared : List String) (routine : Routine) : Prop where
  noneOpen : routine.root.isSome → routine.openBlocks = []
  height : routine.openBlocks.length ≤ limit
  /-- A child of the block at a level stands inside one block more than the level says. -/
  children : ∀ (level : Nat) (block : List (Condition Date)),
    routine.openBlocks.reverse[level]? = some block →
      ∀ child ∈ block, child.Permitted limit declared (level + 1)
  root : ∀ root, routine.root = some root → root.Permitted limit declared 0

/-- `Sound`, in the form that one more token keeps: block by block, from the innermost on. -/
structure Standing (limit : Nat) (declared : List String) (routine : Routine) : Prop where
  permitted : routine.Permitted limit declared
  unfinished : routine.openBlocks ≠ [] → routine.root = none

theorem Permitted.height {routine : Routine} (permitted : routine.Permitted limit declared) :
    routine.openBlocks.length ≤ limit := by
  cases permitted with
  | empty | finished rootPermitted => exact Nat.zero_le limit
  | inside blockPermitted outerPermitted => exact (Condition.permitted_all_iff.mp blockPermitted).1

theorem Permitted.root {routine : Routine} (permitted : routine.Permitted limit declared)
    {root : Condition Date} (whole : routine.root = some root) :
    root.Permitted limit declared 0 := by
  induction permitted with
  | empty => contradiction
  | finished rootPermitted => rwa [← Option.some.inj whole]
  | inside _ _ inductionHypothesis => exact inductionHypothesis whole

theorem Permitted.block {routine : Routine} (permitted : routine.Permitted limit declared)
    {level : Nat} {block : List (Condition Date)}
    (found : routine.openBlocks.reverse[level]? = some block) :
    (Condition.all block).Permitted limit declared level := by
  induction permitted with
  | empty | finished => simp at found
  | @inside innermost outer root blockPermitted _ inductionHypothesis =>
      rw [List.reverse_cons] at found
      by_cases below : level < outer.reverse.length
      · rw [List.getElem?_append_left below] at found
        exact inductionHypothesis found
      · rw [List.getElem?_append_right (Nat.le_of_not_lt below), List.getElem?_singleton] at found
        split at found
        next top =>
          have level_eq : level = outer.length := by
            rw [List.length_reverse] at below top
            omega
          rwa [level_eq, ← Option.some.inj found]
        next => contradiction

theorem Standing.sound {routine : Routine} (standing : routine.Standing limit declared) :
    routine.Sound limit declared where
  noneOpen := by
    intro whole
    by_contra opened
    rw [standing.unfinished opened] at whole
    contradiction
  height := standing.permitted.height
  children level block found := (Condition.permitted_all_iff.mp (standing.permitted.block found)).2
  root _ := standing.permitted.root

theorem standing_empty : Routine.empty.Standing limit declared :=
  ⟨.empty, fun opened => absurd rfl opened⟩

theorem Standing.openBlock {routine : Routine} (standing : routine.Standing limit declared)
    (admits : routine.Admits limit) : routine.openBlock.Standing limit declared where
  permitted := standing.permitted.openBlock admits
  unfinished _ := by
    by_cases opened : routine.openBlocks = []
    · exact admits.unfinished opened
    · exact standing.unfinished opened

theorem Attaches.unfinished {condition : Condition Date} {routine next : Routine}
    (attaches : Attaches condition routine next)
    (unfinished : routine.openBlocks ≠ [] → routine.root = none) :
    next.openBlocks ≠ [] → next.root = none := by
  cases attaches with
  | whole => exact fun opened => absurd rfl opened
  | inside block outer root => exact fun _ => unfinished (List.cons_ne_nil block outer)

theorem Standing.attach {condition : Condition Date} {routine next : Routine}
    (standing : routine.Standing limit declared)
    (conditionPermitted : condition.Permitted limit declared routine.openBlocks.length)
    (attaches : Attaches condition routine next) : next.Standing limit declared :=
  ⟨standing.permitted.attach conditionPermitted attaches,
    attaches.unfinished standing.unfinished⟩

theorem Standing.root_eq_none {block : List (Condition Date)}
    {outer : List (List (Condition Date))} {root : Option (Condition Date)}
    (standing : Standing limit declared ⟨block :: outer, root⟩) : root = none :=
  standing.unfinished (List.cons_ne_nil block outer)

theorem Standing.closeBlock {block : List (Condition Date)}
    {outer : List (List (Condition Date))} {root : Option (Condition Date)} {next : Routine}
    (standing : Standing limit declared ⟨block :: outer, root⟩)
    (attaches : Attaches (.all block.reverse) ⟨outer, root⟩ next) :
    next.Standing limit declared where
  permitted := standing.permitted.closeBlock attaches
  unfinished := by
    apply attaches.unfinished
    exact fun _ => standing.root_eq_none

/-- A finished condition has a place unless the whole condition is there already. -/
theorem exists_attaches (routine : Routine)
    (unfinished : routine.openBlocks = [] → routine.root = none) (condition : Condition Date) :
    ∃ next, Attaches condition routine next := by
  obtain ⟨_ | ⟨block, outer⟩, root⟩ := routine
  · obtain rfl : root = none := unfinished rfl
    exact ⟨_, .whole⟩
  · exact ⟨_, .inside block outer root⟩

theorem Standing.exists_closeBlock {routine : Routine} (standing : routine.Standing limit declared)
    (opened : routine.openBlocks ≠ []) (position : Position) :
    ∃ next, routine.closeBlock position = .ok next := by
  obtain ⟨_ | ⟨block, outer⟩, root⟩ := routine
  · exact absurd rfl opened
  · obtain ⟨next, attaches⟩ :=
      exists_attaches ⟨outer, root⟩ (fun _ => standing.root_eq_none) (.all block.reverse)
    exact ⟨next, attach_eq_ok_iff.mpr attaches⟩

end Routine

/-- Whether a test has been begun where it may stand. -/
structure Clause.Standing (limit : Nat) (clause : Clause) : Prop where
  routine : clause.routine.Standing limit (clause.header.parameters.map Declaration.name)
  admits : clause.routine.Admits limit

namespace Progress

/-- Whether everything that has been read of the routine stands where it may. -/
def Standing (limit : Nat) : Progress → Prop
  | conditions header routine =>
      routine.Standing limit (header.parameters.map Declaration.name)
  | block header routine =>
      routine.Standing limit (header.parameters.map Declaration.name) ∧ routine.Admits limit
  | bornTest clause | speciesTest clause | value clause _ | dateColon clause _ | date clause _
  | referenceColon clause _ | reference clause _ => clause.Standing limit
  | clauseEnd clause condition =>
      clause.Standing limit ∧
        condition.Permitted limit (clause.header.parameters.map Declaration.name)
          clause.routine.openBlocks.length
  | _ => True

variable {limit : Nat} {progress next : Progress} {token : Token}

theorem Transition.standing (transition : Transition limit token progress next)
    (standing : progress.Standing limit) : next.Standing limit := by
  cases transition with
  | routineHeading kind => exact Routine.standing_empty
  | announceBlock kind admits | announceBorn kind admits | announceSpecies kind admits =>
      exact ⟨standing, admits⟩
  | openBlock kind => exact standing.1.openBlock standing.2
  | closeBlock kind attaches => exact Routine.Standing.closeBlock standing attaches
  | date kind carried found =>
      refine ⟨standing, Condition.permitted_test_iff.mpr ⟨standing.admits.depth, ?_⟩⟩
      exact nofun
  | reference kind carried declared =>
      refine ⟨standing, Condition.permitted_test_iff.mpr ⟨standing.admits.depth, ?_⟩⟩
      rintro name ⟨⟩
      exact declared
  | clauseEnd kind attaches => exact standing.1.routine.attach standing.2 attaches
  | name | scriptName | parameterList | declaration | declarationsEnd | parameterName
  | routineEnd => trivial
  | bornAfter | bornBefore | speciesIs | announceDate | announceReference | dateColon
  | referenceColon => exact standing

theorem Leads.standing {tokens : List Token} (leads : Leads limit progress tokens next)
    (standing : progress.Standing limit) : next.Standing limit := by
  induction leads with
  | nil => exact standing
  | cons transition _ inductionHypothesis =>
      exact inductionHypothesis (transition.standing standing)

/-- The header that was read before the routine. -/
def header? : Progress → Option Header
  | routineHeading header | conditions header _ | block header _ => some header
  | bornTest clause | speciesTest clause | value clause _ | dateColon clause _ | date clause _
  | referenceColon clause _ | reference clause _ | clauseEnd clause _ => some clause.header
  | complete script => some ⟨script.name, script.parameters⟩
  | _ => none

theorem Transition.header? {header : Header} (transition : Transition limit token progress next)
    (known : progress.header? = some header) : next.header? = some header := by
  cases transition with
  | name | scriptName | parameterList | declaration | declarationsEnd | parameterName =>
      simp [Progress.header?] at known
  | _ => exact known

theorem Leads.header? {header : Header} {tokens : List Token}
    (leads : Leads limit progress tokens next) (known : progress.header? = some header) :
    next.header? = some header := by
  induction leads with
  | nil => exact known
  | cons transition _ inductionHypothesis => exact inductionHypothesis (transition.header? known)

end Progress

/-!
## A second whole condition
-/

namespace Progress

variable {limit : Nat} {progress next : Progress} {token : Token} {position : Position}

/-- Only where a condition may start is a second whole condition refused. -/
theorem Standing.behindRoot_of_step (standing : progress.Standing limit)
    (rejected : progress.step limit token = .error (.faulty position .duplicateRoot)) :
    (∃ header root, progress = .conditions header ⟨[], some root⟩) ∧ token.IsStart ∧
      token.position = position := by
  cases step_eq_error_iff.mp rejected with
  | startBehindRoot start positive => exact ⟨⟨_, _, rfl⟩, start, rfl⟩
  | closeBehindRoot closing =>
      have unfinished := Routine.Standing.root_eq_none standing
      contradiction
  | testBehindRoot kind finished =>
      have unfinished := standing.1.admits.unfinished
      rw [finished] at unfinished
      have noRoot := unfinished rfl
      contradiction

theorem Standing.behindRoot_of_refuses (standing : progress.Standing limit)
    (refuses : Refuses limit progress token (.faulty position .duplicateRoot)) :
    (∃ header root, progress = .conditions header ⟨[], some root⟩) ∧ token.IsStart ∧
      token.position = position := by
  cases refuses with
  | ended ended rejected => cases progress <;> simp [finish] at rejected
  | stepped unfinished rejected => exact standing.behindRoot_of_step rejected

/-- A run that finds a second whole condition has taken nothing of it. -/
theorem Standing.behindRoot_of_run {σ : Type} [TokenSource σ] {source : σ}
    (standing : progress.Standing limit)
    (rejected : progress.run limit source = .error (.faulty position .duplicateRoot)) :
    ∃ header root token rest,
      TokenSource.toList source = progress.consumed limit source ++ token :: rest ∧
        Leads limit progress (progress.consumed limit source)
          (.conditions header ⟨[], some root⟩) ∧
        token.IsStart ∧ token.position = position := by
  obtain ⟨stop, token, rest, split, leads, refuses⟩ :=
    run_eq_error_and_consumed_iff.mp ⟨rejected, rfl⟩
  obtain ⟨⟨header, root, rfl⟩, start, same⟩ :=
    (leads.standing standing).behindRoot_of_refuses refuses
  exact ⟨header, root, token, rest, split, leads, start, same⟩

theorem Leads.withFinish {before : List Token} {header : Header} {root : Condition Date}
    (leads : Leads limit progress before (.conditions header ⟨[], some root⟩)) :
    Leads limit progress (before ++ [⟨.keyword .finish, none, .origin⟩])
      (.complete (header.withRoot root)) :=
  leads.append (.cons (.routineEnd rfl) .nil)

/-- Where no block is open behind the whole condition, its tokens and the heading of the routine
are all that has been read. -/
theorem Leads.derivesRoot {before : List Token} {header reached : Header} {root : Condition Date}
    (leads : Leads limit (.routineHeading header) before (.conditions reached ⟨[], some root⟩)) :
    ∃ heading body, before = heading :: body ∧ heading.kind = .keyword .routine ∧
      DerivesCondition body root := by
  obtain ⟨whole, derives, -, same⟩ := leads_routineHeading_iff.mp leads.withFinish
  obtain rfl : root = whole := congrArg Script.root same
  generalize split : before ++ _ = tokens at derives
  cases derives with
  | @intro heading finish body _ headingKind derivesBody _ =>
      rw [← List.cons_append] at split
      exact ⟨heading, body, (List.append_inj' split rfl).1, headingKind, derivesBody⟩

theorem leads_behindRoot_iff {before : List Token} {header : Header} {root : Condition Date} :
    Leads limit .start before (.conditions header ⟨[], some root⟩) ↔
      ∃ opening body, before = opening ++ body ∧ DerivesHeader opening header ∧
        DerivesCondition body root ∧ (header.withRoot root).Scoped limit := by
  constructor
  · intro leads
    obtain ⟨derives, wellScoped⟩ := leads_start_iff.mp leads.withFinish
    obtain ⟨opening, ⟨name, parameters⟩, body, whole, finish, derivesHeader, derivesBody, -, split,
      same⟩ := derives.exists_header
    obtain ⟨_, _⟩ := header
    cases same
    exact ⟨opening, body, (List.append_inj' split rfl).1, derivesHeader, derivesBody, wellScoped⟩
  · rintro ⟨opening, body, rfl, derives, derivesRoot, wellScoped⟩
    exact leads_of_derivesHeader derives derivesRoot wellScoped

end Progress

namespace Script

open Progress

/-- Reading finds a second whole condition exactly where one begins behind a header and a whole
condition within the limit. -/
theorem parse_eq_duplicateRoot_iff {σ : Type} [TokenSource σ] {source : σ} {limit : Nat}
    {position : Position} :
    parse source limit = .error (.faulty position .duplicateRoot) ↔
      ∃ opening body header root token rest,
        TokenSource.toList source = opening ++ body ++ token :: rest ∧
        DerivesHeader opening header ∧ DerivesCondition body root ∧
        (header.withRoot root).Scoped limit ∧ token.IsStart ∧ token.position = position := by
  constructor
  · intro rejected
    have begin : Progress.start.Standing limit := trivial
    obtain ⟨header, root, token, rest, split, leads, start, same⟩ :=
      begin.behindRoot_of_run rejected
    obtain ⟨opening, body, taken, derives, derivesRoot, wellScoped⟩ :=
      leads_behindRoot_iff.mp leads
    rw [taken] at split
    exact ⟨opening, body, header, root, token, rest, split, derives, derivesRoot, wellScoped,
      start, same⟩
  · rintro ⟨opening, body, header, root, token, rest, split, derives, derivesRoot, wellScoped,
      start, rfl⟩
    have leads : Leads limit .start (opening ++ body) (.conditions header ⟨[], some root⟩) :=
      leads_behindRoot_iff.mpr ⟨opening, body, rfl, derives, derivesRoot, wellScoped⟩
    have positive : 0 < limit := Nat.lt_of_lt_of_le (Condition.depth_pos root) wellScoped.depth
    exact (run_eq_error_and_consumed_iff.mpr
      ⟨_, token, rest, split, leads, refuses_start positive start⟩).1

end Script

namespace Progress

/-- A routine is sound whenever a condition may come next, whatever its tokens.  So there is always
a place for a finished condition, and a second whole condition is refused at its first token.
Tokens lead from one progress to another by the steps of reading that succeed, and by no others
(`step_eq_ok_iff`). -/
theorem routine_sound_throughout (limit : Nat) (header : Header) :
    (∀ before reached routine,
      Leads limit (.routineHeading header) before (.conditions reached routine) →
        reached = header ∧ routine.Sound limit (header.parameters.map Declaration.name) ∧
          (routine.openBlocks ≠ [] → ∀ position, ∃ next, routine.closeBlock position = .ok next)) ∧
    (∀ before clause condition,
      Leads limit (.routineHeading header) before (.clauseEnd clause condition) →
        ∃ next, clause.routine.attach clause.start condition = .ok next) ∧
    ∀ {σ : Type} [TokenSource σ] (source : σ) (position : Position),
      (Progress.routineHeading header).run limit source =
          .error (.faulty position .duplicateRoot) →
        ∃ heading body root token rest,
          TokenSource.toList source = heading :: body ++ token :: rest ∧
          (Progress.routineHeading header).consumed limit source = heading :: body ∧
          heading.kind = .keyword .routine ∧ DerivesCondition body root ∧
          token.IsStart ∧ token.position = position := by
  have begin : (Progress.routineHeading header).Standing limit := trivial
  refine ⟨?_, ?_, ?_⟩
  · intro before reached routine leads
    obtain rfl : reached = header := Option.some.inj (leads.header? rfl)
    have standing : routine.Standing limit _ := leads.standing begin
    exact ⟨rfl, standing.sound, standing.exists_closeBlock⟩
  · intro before clause condition leads
    have standing : clause.Standing limit := (leads.standing begin).1
    obtain ⟨next, attaches⟩ :=
      Routine.exists_attaches clause.routine standing.admits.unfinished condition
    exact ⟨next, Routine.attach_eq_ok_iff.mpr attaches⟩
  · intro σ _ source position rejected
    obtain ⟨reached, root, token, rest, split, leads, start, same⟩ :=
      begin.behindRoot_of_run rejected
    obtain ⟨heading, body, taken, headingKind, derives⟩ := leads.derivesRoot
    rw [taken] at split
    exact ⟨heading, body, root, token, rest, split, taken, headingKind, derives, start, same⟩

/-- The header of a script with one parameter. -/
def speciesHeader : Header :=
  ⟨"g", [⟨"s", .species⟩]⟩

/-- A test of the species against that parameter. -/
def speciesTestSample : Condition Date :=
  .test .speciesIs (.reference "s")

def headingSample : Token :=
  ⟨.keyword .routine, none, ⟨4, 0⟩⟩

/-- A routine of which two blocks are open, the inner one with the test in it. -/
def openedTokens : List Token :=
  [headingSample, ⟨.keyword .and, none, ⟨4, 8⟩⟩, ⟨.mark .leftBrace, none, ⟨4, 12⟩⟩,
    ⟨.keyword .and, none, ⟨4, 14⟩⟩, ⟨.mark .leftBrace, none, ⟨4, 18⟩⟩] ++ Script.speciesBody

/-- A routine with the test, and the beginning of a block behind it. -/
def repeatedTokens : List Token :=
  headingSample :: Script.speciesBody ++
    [⟨.keyword .and, none, ⟨6, 0⟩⟩, ⟨.mark .leftBrace, none, ⟨6, 4⟩⟩]

theorem leads_clauseEnd_speciesBody {limit : Nat} {routine : Routine}
    (admits : routine.Admits limit) :
    Leads limit (.conditions speciesHeader routine) Script.speciesBody.dropLast
      (.clauseEnd ⟨speciesHeader, routine, ⟨5, 0⟩⟩ speciesTestSample) :=
  .cons (.announceSpecies rfl admits) (.cons (.speciesIs rfl) (.cons (.announceReference rfl)
    (.cons (.referenceColon rfl) (.cons (.reference rfl rfl List.mem_cons_self) .nil))))

theorem leads_speciesBody {limit : Nat} {routine next : Routine} (admits : routine.Admits limit)
    (attaches : routine.Attaches speciesTestSample next) :
    Leads limit (.conditions speciesHeader routine) Script.speciesBody
      (.conditions speciesHeader next) :=
  (leads_clauseEnd_speciesBody admits).append (.cons (.clauseEnd rfl attaches) .nil)

theorem leads_openedTokens :
    Leads 3 (.routineHeading speciesHeader) openedTokens
      (.conditions speciesHeader ⟨[[speciesTestSample], []], none⟩) := by
  have admitsOuter : Routine.empty.Admits 3 := ⟨by decide, fun _ => rfl⟩
  have admitsInner : (Routine.mk [[]] none).Admits 3 := ⟨by decide, fun _ => rfl⟩
  have admitsTest : (Routine.mk [[], []] none).Admits 3 := ⟨by decide, fun _ => rfl⟩
  exact .cons (.routineHeading rfl) (.cons (.announceBlock rfl admitsOuter)
    (.cons (.openBlock rfl) (.cons (.announceBlock rfl admitsInner)
      (.cons (.openBlock rfl) (leads_speciesBody admitsTest (.inside [] [[]] none))))))

theorem run_repeatedTokens :
    (Progress.routineHeading speciesHeader).run 1 (TokenQueue.ofList repeatedTokens) =
      .error (.faulty ⟨6, 0⟩ .duplicateRoot) := by
  have admits : Routine.empty.Admits 1 := ⟨by decide, fun _ => rfl⟩
  have leads : Leads 1 (.routineHeading speciesHeader) (headingSample :: Script.speciesBody)
      (.conditions speciesHeader ⟨[], some speciesTestSample⟩) :=
    .cons (.routineHeading rfl) (leads_speciesBody admits .whole)
  obtain ⟨later, split⟩ := TokenQueue.toList_append leads.unfinished .origin
    ⟨.keyword .and, none, ⟨6, 0⟩⟩ [⟨.mark .leftBrace, none, ⟨6, 4⟩⟩]
  exact (run_eq_error_and_consumed_iff.mpr
    ⟨_, _, later, split, leads, refuses_start Nat.one_pos (.inl rfl)⟩).1

/-- With three levels allowed, the test in the inner block just fits, and the block has a place.
With one level allowed, so has the test alone, and a block behind it is refused at its first
token. -/
theorem routine_sound_samples :
    Leads 3 (.routineHeading speciesHeader) openedTokens
      (.conditions speciesHeader ⟨[[speciesTestSample], []], none⟩) ∧
    Routine.Sound 3 ["s"] ⟨[[speciesTestSample], []], none⟩ ∧
    (∃ next, Routine.closeBlock ⟨6, 0⟩ ⟨[[speciesTestSample], []], none⟩ = .ok next) ∧
    Leads 1 (.routineHeading speciesHeader) (headingSample :: Script.speciesBody.dropLast)
      (.clauseEnd ⟨speciesHeader, .empty, ⟨5, 0⟩⟩ speciesTestSample) ∧
    (∃ next, Routine.empty.attach ⟨5, 0⟩ speciesTestSample = .ok next) ∧
    (Progress.routineHeading speciesHeader).run 1 (TokenQueue.ofList repeatedTokens) =
      .error (.faulty ⟨6, 0⟩ .duplicateRoot) ∧
    ∃ heading body root token rest,
      TokenSource.toList (TokenQueue.ofList repeatedTokens) = heading :: body ++ token :: rest ∧
      (Progress.routineHeading speciesHeader).consumed 1 (TokenQueue.ofList repeatedTokens) =
        heading :: body ∧
      heading.kind = .keyword .routine ∧ DerivesCondition body root ∧
      token.IsStart ∧ token.position = ⟨6, 0⟩ := by
  obtain ⟨betweenConditions, -, -⟩ := routine_sound_throughout 3 speciesHeader
  obtain ⟨-, behindTests, behindRoot⟩ := routine_sound_throughout 1 speciesHeader
  obtain ⟨-, sound, closes⟩ := betweenConditions _ _ _ leads_openedTokens
  have admits : Routine.empty.Admits 1 := ⟨by decide, fun _ => rfl⟩
  have leads : Leads 1 (.routineHeading speciesHeader)
      (headingSample :: Script.speciesBody.dropLast)
      (.clauseEnd ⟨speciesHeader, .empty, ⟨5, 0⟩⟩ speciesTestSample) :=
    .cons (.routineHeading rfl) (leads_clauseEnd_speciesBody admits)
  exact ⟨leads_openedTokens, sound, closes (List.cons_ne_nil _ _) _, leads,
    behindTests _ _ _ leads, run_repeatedTokens, behindRoot _ _ run_repeatedTokens⟩

end Progress

end Cohort
