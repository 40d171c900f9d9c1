import Cohort.Proofs.Condition.Structure
import Cohort.Script.Basic
import Cohort.Script.DateLiteral
import Cohort.Token.Basic

/-!
# The grammar of scripts

The rules of the grammar as relations between tokens and what they derive, and what is asked of a
script beside its grammar.
-/

namespace Cohort

/-- `DATE : dateLiteral` or `PARAM : identifier`. -/
inductive DerivesValue : List Token → Value Date → Prop where
  | date {word colon literal : Token} {text : String} {day : Date} :
      word.kind = .keyword .date → colon.kind = .mark .colon →
      literal.kind = .dateLiteral → literal.text = some text →
      Date.ofLiteral? text = some day →
      DerivesValue [word, colon, literal] (.date day)
  | reference {word colon identifier : Token} {name : String} :
      word.kind = .keyword .param → colon.kind = .mark .colon →
      identifier.kind = .identifier → identifier.text = some name →
      DerivesValue [word, colon, identifier] (.reference name)

/-- `BORN AFTER`, `BORN BEFORE` or `SPECIES IS`. -/
inductive DerivesTest : List Token → Test → Prop where
  | bornAfter {fact relation : Token} :
      fact.kind = .keyword .born → relation.kind = .keyword .after →
      DerivesTest [fact, relation] .bornAfter
  | bornBefore {fact relation : Token} :
      fact.kind = .keyword .born → relation.kind = .keyword .before →
      DerivesTest [fact, relation] .bornBefore
  | speciesIs {fact relation : Token} :
      fact.kind = .keyword .species → relation.kind = .keyword .is →
      DerivesTest [fact, relation] .speciesIs

mutual

/-- A block of conditions in braces, or a test with its value and a semicolon. -/
inductive DerivesCondition : List Token → Condition Date → Prop where
  | all {word opening closing : Token} {body : List Token} {children : List (Condition Date)} :
      word.kind = .keyword .and → opening.kind = .mark .leftBrace →
      DerivesConditions body children → closing.kind = .mark .rightBrace →
      DerivesCondition (word :: opening :: (body ++ [closing])) (.all children)
  | test {start operand : List Token} {semicolon : Token} {kind : Test} {value : Value Date} :
      DerivesTest start kind → DerivesValue operand value →
      semicolon.kind = .mark .semicolon →
      DerivesCondition (start ++ (operand ++ [semicolon])) (.test kind value)

/-- Conditions one after the other, or none. -/
inductive DerivesConditions : List Token → List (Condition Date) → Prop where
  | nil : DerivesConditions [] []
  | cons {first rest : List Token} {child : Condition Date} {siblings : List (Condition Date)} :
      DerivesCondition first child → DerivesConditions rest siblings →
      DerivesConditions (first ++ rest) (child :: siblings)

end

/-- `SPECIES identifier`, any number of times. -/
inductive DerivesDeclarations : List Token → List Declaration → Prop where
  | nil : DerivesDeclarations [] []
  | cons {word identifier : Token} {rest : List Token} {name : String}
      {later : List Declaration} :
      word.kind = .keyword .species → identifier.kind = .identifier →
      identifier.text = some name → DerivesDeclarations rest later →
      DerivesDeclarations (word :: identifier :: rest) (⟨name, .species⟩ :: later)

/-- `ROUTINE condition END`. -/
inductive DerivesRoutine : List Token → Condition Date → Prop where
  | intro {heading finish : Token} {body : List Token} {root : Condition Date} :
      heading.kind = .keyword .routine → DerivesCondition body root →
      finish.kind = .keyword .finish → DerivesRoutine (heading :: (body ++ [finish])) root

/-- `NAME identifier PARAMETERS declarations END` and a routine. -/
inductive DerivesScript : List Token → Script → Prop where
  | intro {word title heading finish : Token} {name : String}
      {declared routine : List Token} {parameters : List Declaration} {root : Condition Date} :
      word.kind = .keyword .name → title.kind = .identifier → title.text = some name →
      heading.kind = .keyword .parameters → DerivesDeclarations declared parameters →
      finish.kind = .keyword .finish → DerivesRoutine routine root →
      DerivesScript (word :: title :: heading :: (declared ++ finish :: routine))
        ⟨name, parameters, root⟩

def Value.RefersOnlyTo (names : List String) (value : Value Date) : Prop :=
  ∀ name, value = .reference name → name ∈ names

def Condition.RefersOnlyTo (names : List String) (condition : Condition Date) : Prop :=
  ∀ leaf ∈ condition.tests, leaf.2.RefersOnlyTo names

/-- What is asked of a script beside its grammar: no name is declared twice, every reference is
to a declared name, and the nesting stays within a limit. -/
structure Script.Scoped (maxDepth : Nat) (script : Script) : Prop where
  distinctNames : script.declaredNames.Nodup
  references : script.root.RefersOnlyTo script.declaredNames
  depth : script.root.depth ≤ maxDepth

/-- The tokens of a list that are read: those before the first end of input. -/
def sentence (tokens : List Token) : List Token :=
  tokens.takeWhile (·.kind ≠ .endOfInput)

theorem sentence_of_ended {token : Token} (ended : token.kind = .endOfInput) (rest : List Token) :
    sentence (token :: rest) = [] := by
  simp [sentence, ended]

theorem sentence_of_token {token : Token} (unfinished : token.kind ≠ .endOfInput)
    (rest : List Token) : sentence (token :: rest) = token :: sentence rest := by
  simp [sentence, unfinished]

theorem Condition.refersOnlyTo_all_iff {names : List String} {children : List (Condition Date)} :
    (all children).RefersOnlyTo names ↔ ∀ child ∈ children, child.RefersOnlyTo names :=
  forall_mem_tests_all_iff

theorem Condition.refersOnlyTo_test_iff {names : List String} {kind : Test}
    {value : Value Date} : (test kind value).RefersOnlyTo names ↔ value.RefersOnlyTo names := by
  simp [RefersOnlyTo]

/-- The word `END` shows where declarations stop. -/
theorem DerivesDeclarations.eq_of_append_finish {first second firstRest secondRest : List Token}
    {firstFinish secondFinish : Token} {parameters others : List Declaration}
    (derives : DerivesDeclarations first parameters)
    (otherDerives : DerivesDeclarations second others)
    (finishKind : firstFinish.kind = .keyword .finish)
    (otherFinishKind : secondFinish.kind = .keyword .finish)
    (same : first ++ firstFinish :: firstRest = second ++ secondFinish :: secondRest) :
    parameters = others ∧ firstRest = secondRest := by
  induction derives generalizing second others with
  | nil =>
      cases otherDerives with
      | nil => exact ⟨rfl, (List.cons.inj same).2⟩
      | cons wordKind =>
          rw [← (List.cons.inj same).1, finishKind] at wordKind
          contradiction
  | cons wordKind identifierKind named later inductionHypothesis =>
      cases otherDerives with
      | nil =>
          rw [(List.cons.inj same).1, otherFinishKind] at wordKind
          contradiction
      | cons otherWordKind otherIdentifierKind otherNamed otherLater =>
          obtain ⟨identifiers, rests⟩ := List.cons.inj (List.cons.inj same).2
          rw [identifiers, otherNamed] at named
          obtain ⟨declared, remaining⟩ := inductionHypothesis otherLater rests
          rw [Option.some.inj named, declared]
          exact ⟨rfl, remaining⟩

end Cohort
