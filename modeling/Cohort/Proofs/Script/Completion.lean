import Cohort.Proofs.Script.Expectation
import Cohort.Proofs.Script.Interchange

/-!
# Behind the whole condition

A routine has one condition.  Once it has been read, the next token alone decides how reading ends,
but for `END`, behind which nothing may follow.
-/

namespace Cohort

/-- `NAME identifier PARAMETERS declarations END ROUTINE`. -/
inductive DerivesHeader : List Token → Header → Prop where
  | intro {word title heading finish routine : Token} {name : String} {declared : List Token}
      {parameters : List Declaration} :
      word.kind = .keyword .name → title.kind = .identifier → title.text = some name →
      heading.kind = .keyword .parameters → DerivesDeclarations declared parameters →
      finish.kind = .keyword .finish → routine.kind = .keyword .routine →
      DerivesHeader (word :: title :: heading :: (declared ++ [finish, routine]))
        ⟨name, parameters⟩

/-- The script that a header and a condition make. -/
def Header.withRoot (header : Header) (root : Condition Date) : Script :=
  ⟨header.name, header.parameters, root⟩

theorem DerivesHeader.derivesScript {opening body : List Token} {header : Header}
    {root : Condition Date} (derives : DerivesHeader opening header)
    (derivesRoot : DerivesCondition body root) {finish : Token}
    (finishKind : finish.kind = .keyword .finish) :
    DerivesScript (opening ++ body ++ [finish]) (header.withRoot root) := by
  cases derives with
  | intro word title carried heading declared ended routine =>
      have whole := DerivesScript.intro word title carried heading declared ended
        (.intro routine derivesRoot finishKind)
      simpa [Header.withRoot] using whole

theorem DerivesScript.exists_header {tokens : List Token} {script : Script}
    (derives : DerivesScript tokens script) :
    ∃ opening header body root finish, DerivesHeader opening header ∧
      DerivesCondition body root ∧ finish.kind = .keyword .finish ∧
      tokens = opening ++ body ++ [finish] ∧ script = header.withRoot root := by
  cases derives with
  | intro word title carried heading declared ended routine =>
      cases routine with
      | intro routine derivesRoot finishKind =>
          exact ⟨_, _, _, _, _, .intro word title carried heading declared ended routine,
            derivesRoot, finishKind, by simp, rfl⟩

namespace Progress

variable {limit : Nat} {header : Header} {root : Condition Date} {token : Token}

/-- A header and a condition lead to where the routine may end. -/
theorem leads_of_derivesHeader {opening body : List Token}
    (derives : DerivesHeader opening header) (derivesRoot : DerivesCondition body root)
    (wellScoped : (header.withRoot root).Scoped limit) :
    Leads limit .start (opening ++ body) (.conditions header ⟨[], some root⟩) := by
  -- An `END` would complete the script, and only a finished routine may end.
  have finished : DerivesScript (opening ++ body ++ [⟨.keyword .finish, none, .origin⟩])
      (header.withRoot root) := derives.derivesScript derivesRoot rfl
  obtain ⟨middle, leads, continues⟩ := (leads_start_iff.mpr ⟨finished, wellScoped⟩).split
  obtain ⟨name, parameters⟩ := header
  cases continues with | cons last rest => ?_
  cases rest
  cases last with
  | routineEnd kind => exact leads

theorem refuses_start (positive : 0 < limit) (start : token.IsStart) :
    Refuses limit (.conditions header ⟨[], some root⟩) token
      (.faulty token.position .duplicateRoot) := by
  have unfinished : token.kind ≠ .endOfInput := by
    rcases start with kind | kind | kind <;> simp [kind]
  exact .stepped unfinished (step_of_fails (.startBehindRoot start positive))

theorem refuses_closing (closing : token.kind = .mark .rightBrace) :
    Refuses limit (.conditions header ⟨[], some root⟩) token
      (.faulty token.position .strayClose) :=
  .stepped (by simp [closing]) (step_of_closing closing)

end Progress

namespace Script

open Progress

/-- How reading ends behind the whole condition of a script, with the two tokens that come next. -/
def outcomeBehindRoot (script : Script) (token following : Token) : Except Rejection Script :=
  match token.kind with
  | .keyword .and | .keyword .born | .keyword .species =>
      .error (.faulty token.position .duplicateRoot)
  | .mark .rightBrace => .error (.faulty token.position .strayClose)
  | .keyword .finish =>
      if following.kind = .endOfInput then .ok script
      else .error (.unexpected following [.endOfInput])
  | _ => .error (.unexpected token kindsAtTop)

/-- Behind a complete script nothing but the end of input is taken. -/
theorem parse_append_of_complete {limit : Nat} {before : List Token} {script : Script}
    (leads : Leads limit .start before (.complete script)) (rest : List Token)
    (position : Position) :
    parse (TokenQueue.ofList (before ++ rest)) limit =
      if (rest.headD (.ended position)).kind = .endOfInput then .ok script
      else .error (.unexpected (rest.headD (.ended position)) [.endOfInput]) := by
  have completed : sentence (before ++ rest) = before →
      parse (TokenQueue.ofList (before ++ rest)) limit = .ok script := by
    intro same
    apply run_eq_ok_iff.mpr
    rwa [TokenQueue.sentence_toList, TokenQueue.ofList, same]
  have prefixed : ∀ rest, sentence (before ++ rest) = before ++ sentence rest := by
    intro rest
    apply List.takeWhile_append_of_pos
    simpa using leads.unfinished
  cases rest with
  | nil =>
      have ended : (Token.ended position).kind = .endOfInput := rfl
      rw [List.headD_nil, if_pos ended]
      exact completed ((prefixed []).trans (List.append_nil before))
  | cons next later =>
      rw [List.headD_cons]
      by_cases ended : next.kind = .endOfInput
      · rw [if_pos ended]
        apply completed
        rw [prefixed, sentence_of_ended ended, List.append_nil]
      · rw [if_neg ended]
        have unknown : next.kind ∉ expected (.complete script) := by simpa [expected] using ended
        have refused : Refuses limit (.complete script) next (.unexpected next [.endOfInput]) :=
          refuses_unexpected_iff.mpr ⟨rfl, rfl, unknown, by simp [AtTop]⟩
        exact ((stopsAt_append_iff leads).mpr refused).result

/-- Behind a header and one whole condition within the limit, how reading ends is decided by the
next token, and by the one behind it where that is `END`. -/
theorem parse_behind_root {limit : Nat} {opening body : List Token} {header : Header}
    {root : Condition Date} (derives : DerivesHeader opening header)
    (derivesRoot : DerivesCondition body root)
    (wellScoped : (header.withRoot root).Scoped limit) :
    (∀ token rest, parse (TokenQueue.ofList (opening ++ body ++ token :: rest)) limit =
      (header.withRoot root).outcomeBehindRoot token (rest.headD (.ended token.position))) ∧
    parse (TokenQueue.ofList (opening ++ body)) limit =
      .error (.unexpected (.ended (TokenQueue.lastPosition (opening ++ body) .origin))
        kindsAtTop) := by
  have leads := leads_of_derivesHeader derives derivesRoot wellScoped
  have positive : 0 < limit := Nat.lt_of_lt_of_le (Condition.depth_pos root) wellScoped.depth
  have decided : ∀ token rest, parse (TokenQueue.ofList (opening ++ body ++ token :: rest)) limit =
      (header.withRoot root).outcomeBehindRoot token (rest.headD (.ended token.position)) := by
    intro token rest
    unfold outcomeBehindRoot
    split
    next kind =>
      exact ((stopsAt_append_iff leads).mpr (refuses_start positive (.inl kind))).result
    next kind =>
      exact ((stopsAt_append_iff leads).mpr (refuses_start positive (.inr (.inl kind)))).result
    next kind =>
      exact ((stopsAt_append_iff leads).mpr (refuses_start positive (.inr (.inr kind)))).result
    next closing =>
      exact ((stopsAt_append_iff leads).mpr (refuses_closing closing)).result
    next finish =>
      have complete : Leads limit .start (opening ++ body ++ [token])
          (.complete (header.withRoot root)) :=
        leads_start_iff.mpr ⟨derives.derivesScript derivesRoot finish, wellScoped⟩
      rw [List.append_cons]
      exact parse_append_of_complete complete rest token.position
    next noAnd noBorn noSpecies noClosing noFinish =>
      have unknown : token.kind ∉ expected (.conditions header ⟨[], some root⟩) := by
        simp only [expected, List.mem_cons, List.not_mem_nil, or_false]
        rintro (kind | kind | kind | kind)
        · exact noAnd kind
        · exact noBorn kind
        · exact noSpecies kind
        · exact noFinish kind
      exact ((stopsAt_append_iff leads).mpr (refuses_unexpected_iff.mpr
        ⟨rfl, rfl, unknown, fun closing => noClosing closing.1⟩)).result
  refine ⟨decided, ?_⟩
  have padded := TokenQueue.interchangeable_of_unfinished leads.unfinished
  have same : parse (TokenQueue.ofList (opening ++ body)) limit = _ :=
    Progress.run_eq_of_interchangeable padded limit .start
  rw [same]
  exact decided _ []

/-- The header of a script with one parameter. -/
def speciesOpening : List Token :=
  [⟨.keyword .name, none, ⟨0, 0⟩⟩, ⟨.identifier, some "g", ⟨0, 5⟩⟩,
    ⟨.keyword .parameters, none, ⟨1, 0⟩⟩, ⟨.keyword .species, none, ⟨2, 0⟩⟩,
    ⟨.identifier, some "s", ⟨2, 8⟩⟩, ⟨.keyword .finish, none, ⟨3, 0⟩⟩,
    ⟨.keyword .routine, none, ⟨4, 0⟩⟩]

/-- A test of the species against that parameter. -/
def speciesBody : List Token :=
  [⟨.keyword .species, none, ⟨5, 0⟩⟩, ⟨.keyword .is, none, ⟨5, 8⟩⟩,
    ⟨.keyword .param, none, ⟨5, 11⟩⟩, ⟨.mark .colon, none, ⟨5, 16⟩⟩,
    ⟨.identifier, some "s", ⟨5, 17⟩⟩, ⟨.mark .semicolon, none, ⟨5, 18⟩⟩]

/-- With one level allowed, a block behind the test would be too deep where it goes on, but it is
refused at its first token. -/
theorem parse_behind_speciesBody :
    DerivesHeader speciesOpening ⟨"g", [⟨"s", .species⟩]⟩ ∧
    DerivesCondition speciesBody (.test .speciesIs (.reference "s")) ∧
    Script.Scoped 1 ⟨"g", [⟨"s", .species⟩], .test .speciesIs (.reference "s")⟩ ∧
    parse (TokenQueue.ofList (speciesOpening ++ speciesBody ++
      [⟨.keyword .and, none, ⟨6, 0⟩⟩, ⟨.mark .leftBrace, none, ⟨6, 4⟩⟩,
        ⟨.keyword .and, none, ⟨6, 6⟩⟩])) 1 = .error (.faulty ⟨6, 0⟩ .duplicateRoot) ∧
    parse (TokenQueue.ofList (speciesOpening ++ speciesBody ++
      [⟨.keyword .finish, none, ⟨6, 0⟩⟩, ⟨.keyword .finish, none, ⟨7, 0⟩⟩])) 1 =
        .error (.unexpected ⟨.keyword .finish, none, ⟨7, 0⟩⟩ [.endOfInput]) ∧
    parse (TokenQueue.ofList (speciesOpening ++ speciesBody ++
      [⟨.keyword .finish, none, ⟨6, 0⟩⟩])) 1 =
        .ok ⟨"g", [⟨"s", .species⟩], .test .speciesIs (.reference "s")⟩ ∧
    parse (TokenQueue.ofList (speciesOpening ++ speciesBody)) 1 =
      .error (.unexpected (.ended ⟨5, 18⟩) kindsAtTop) := by
  have derives : DerivesHeader speciesOpening ⟨"g", [⟨"s", .species⟩]⟩ :=
    .intro rfl rfl rfl rfl (.cons rfl rfl rfl .nil) rfl rfl
  have derivesRoot : DerivesCondition speciesBody (.test .speciesIs (.reference "s")) :=
    .test (.speciesIs rfl rfl) (.reference rfl rfl rfl rfl) rfl
  have wellScoped :
      Script.Scoped 1 ⟨"g", [⟨"s", .species⟩], .test .speciesIs (.reference "s")⟩ := by
    refine ⟨by decide, ?_, by decide⟩
    apply Condition.refersOnlyTo_test_iff.mpr
    rintro name ⟨⟩
    exact List.mem_singleton.mpr rfl
  obtain ⟨decided, unfinished⟩ := parse_behind_root derives derivesRoot wellScoped
  exact ⟨derives, derivesRoot, wellScoped, decided _ _, decided _ _, decided _ _, unfinished⟩

end Script

end Cohort
