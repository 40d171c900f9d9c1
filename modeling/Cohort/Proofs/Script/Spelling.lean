import Cohort.Proofs.Script.Grammar
import Cohort.Proofs.Token.Split
import Mathlib.Data.List.Forall2

/-!
# How scripts are spelled

Every script is spelled by a list of lexemes.  If the script is one that can be written, these are
marks and words, and their tokens derive it.
-/

namespace Cohort

/-- A text that can name a script or a parameter: a word, but no keyword and not of the shape of
dates. -/
structure IsName (text : String) : Prop where
  word : IsWord text.toList
  noKeyword : ∀ keyword : Keyword, keyword.spelling ≠ text
  noDate : ¬HasDateShape text.toList

/-- Whether a value can be written where some parameters are declared. -/
def Value.IsExpressible (declared : List String) : Value Date → Prop
  | .date day => 0 ≤ day.year ∧ day.year ≤ 9999
  | .reference name => name ∈ declared
  | .species _ => False

/-- Whether a script can be written at all, within a limit on nesting. -/
structure Script.Expressible (maxDepth : Nat) (script : Script) : Prop where
  name : IsName script.name
  parameterNames : ∀ declaration ∈ script.parameters, IsName declaration.name
  distinctNames : script.declaredNames.Nodup
  depth : script.root.depth ≤ maxDepth
  values : ∀ leaf ∈ script.root.tests, leaf.2.IsExpressible script.declaredNames

namespace Lexeme

def keyword (keyword : Keyword) : Lexeme :=
  .word keyword.spelling.toList

def name (text : String) : Lexeme :=
  .word text.toList

/-- Whether a token is the one of a lexeme, wherever it stands. -/
def Makes (lexeme : Lexeme) (token : Token) : Prop :=
  ∃ position, lexeme.token position = token

theorem token_keyword (keyword : Keyword) (position : Position) :
    (Lexeme.keyword keyword).token position = ⟨.keyword keyword, none, position⟩ := by
  rw [Lexeme.keyword, token, Token.ofWord, String.ofList_toList, Keyword.ofSpelling?_spelling]

theorem token_of_unreserved {characters : List Char} (position : Position)
    (unreserved : ∀ keyword : Keyword, keyword.spelling.toList ≠ characters) :
    (Lexeme.word characters).token position =
      ⟨if isDateShape characters then .dateLiteral else .identifier,
        some (String.ofList characters), position⟩ := by
  rw [token, Token.ofWord, Keyword.ofSpelling?_eq_none_iff.mpr unreserved]

theorem token_name {text : String} (isName : IsName text) (position : Position) :
    (Lexeme.name text).token position = ⟨.identifier, some text, position⟩ := by
  have unreserved : ∀ keyword : Keyword, keyword.spelling.toList ≠ text.toList :=
    fun keyword same => isName.noKeyword keyword (String.toList_inj.mp same)
  have noDate : ¬isDateShape text.toList = true :=
    fun shape => isName.noDate (isDateShape_iff.mp shape)
  rw [name, token_of_unreserved position unreserved, if_neg noDate, String.ofList_toList]

theorem token_of_hasDateShape {characters : List Char} (shape : HasDateShape characters)
    (position : Position) :
    (Lexeme.word characters).token position =
      ⟨.dateLiteral, some (String.ofList characters), position⟩ := by
  rw [token_of_unreserved position shape.unreserved, if_pos (isDateShape_iff.mpr shape)]

theorem token_date {day : Date} (notBefore : 0 ≤ day.year) (position : Position) :
    (Lexeme.word day.characters).token position =
      ⟨.dateLiteral, some (String.ofList day.characters), position⟩ :=
  token_of_hasDateShape (Date.characters_spec notBefore).1 position

end Lexeme

/-!
## Lexemes of scripts
-/

/-- A value behind its type.  There is no way to spell a species. -/
def Value.lexemes : Value Date → List Lexeme
  | .date day => [.keyword .date, .mark .colon, .word day.characters]
  | .reference name => [.keyword .param, .mark .colon, .name name]
  | .species _ => []

def Test.lexemes : Test → List Lexeme
  | .bornAfter => [.keyword .born, .keyword .after]
  | .bornBefore => [.keyword .born, .keyword .before]
  | .speciesIs => [.keyword .species, .keyword .is]

namespace Condition

mutual

def lexemes : Condition Date → List Lexeme
  | all children =>
      .keyword .and :: .mark .leftBrace :: (lexemesBelow children ++ [.mark .rightBrace])
  | test kind value => kind.lexemes ++ (value.lexemes ++ [.mark .semicolon])

def lexemesBelow : List (Condition Date) → List Lexeme
  | [] => []
  | child :: siblings => child.lexemes ++ lexemesBelow siblings

end

theorem lexemesBelow_eq_flatMap (children : List (Condition Date)) :
    lexemesBelow children = children.flatMap lexemes :=
  eq_flatMap_of_cons rfl (fun _ _ => rfl) children

theorem lexemes_all (children : List (Condition Date)) :
    (all children).lexemes =
      .keyword .and :: .mark .leftBrace ::
        (children.flatMap lexemes ++ [.mark .rightBrace]) := by
  rw [lexemes, lexemesBelow_eq_flatMap]

end Condition

def Declaration.lexemes (declaration : Declaration) : List Lexeme :=
  [.keyword .species, .name declaration.name]

def Script.lexemes (script : Script) : List Lexeme :=
  .keyword .name :: .name script.name :: .keyword .parameters ::
    (script.parameters.flatMap Declaration.lexemes ++
      .keyword .finish :: .keyword .routine :: (script.root.lexemes ++ [.keyword .finish]))

theorem Test.wellFormed_lexemes (kind : Test) : ∀ lexeme ∈ kind.lexemes, lexeme.WellFormed := by
  cases kind <;>
    simp only [lexemes, List.forall_mem_cons] <;>
    exact ⟨Keyword.isWord_spelling _, Keyword.isWord_spelling _, List.forall_mem_nil _⟩

theorem Value.wellFormed_lexemes {declared : List String} (names : ∀ name ∈ declared, IsName name)
    {value : Value Date} (expressible : value.IsExpressible declared) :
    ∀ lexeme ∈ value.lexemes, lexeme.WellFormed := by
  cases value with
  | date day =>
      simp only [lexemes, List.forall_mem_cons]
      exact ⟨Keyword.isWord_spelling _, trivial, isWord_dateCharacters _ _ _, List.forall_mem_nil _⟩
  | reference name =>
      simp only [lexemes, List.forall_mem_cons]
      exact ⟨Keyword.isWord_spelling _, trivial, (names name expressible).word,
        List.forall_mem_nil _⟩
  | species id => exact List.forall_mem_nil _

theorem Condition.wellFormed_lexemes {declared : List String}
    (names : ∀ name ∈ declared, IsName name) {condition : Condition Date}
    (expressible : ∀ leaf ∈ condition.tests, leaf.2.IsExpressible declared) :
    ∀ lexeme ∈ condition.lexemes, lexeme.WellFormed := by
  induction condition using Condition.induction with
  | test kind value =>
      have spelled := expressible (kind, value) (List.mem_singleton.mpr rfl)
      simp only [lexemes, List.forall_mem_append, List.forall_mem_singleton]
      exact ⟨kind.wellFormed_lexemes, Value.wellFormed_lexemes names spelled, trivial⟩
  | all children inductionHypothesis =>
      rw [forall_mem_tests_all_iff] at expressible
      simp only [lexemes_all, List.forall_mem_cons, List.forall_mem_append, List.mem_flatMap]
      refine ⟨Keyword.isWord_spelling _, trivial, ?_, trivial, List.forall_mem_nil _⟩
      rintro lexeme ⟨child, membership, inChild⟩
      exact inductionHypothesis child membership (expressible child membership) lexeme inChild

theorem Declaration.wellFormed_lexemes {declaration : Declaration}
    (isName : IsName declaration.name) : ∀ lexeme ∈ declaration.lexemes, lexeme.WellFormed := by
  simp only [lexemes, List.forall_mem_cons]
  exact ⟨Keyword.isWord_spelling _, isName.word, List.forall_mem_nil _⟩

theorem Script.wellFormed_lexemes {maxDepth : Nat} {script : Script}
    (expressible : script.Expressible maxDepth) :
    ∀ lexeme ∈ script.lexemes, lexeme.WellFormed := by
  have names : ∀ name ∈ script.declaredNames, IsName name :=
    List.forall_mem_map.mpr expressible.parameterNames
  simp only [lexemes, List.forall_mem_cons, List.forall_mem_append, List.mem_flatMap]
  refine ⟨Keyword.isWord_spelling _, expressible.name.word, Keyword.isWord_spelling _, ?_,
    Keyword.isWord_spelling _, Keyword.isWord_spelling _,
    Condition.wellFormed_lexemes names expressible.values, Keyword.isWord_spelling _,
    List.forall_mem_nil _⟩
  rintro lexeme ⟨declaration, membership, inDeclaration⟩
  exact Declaration.wellFormed_lexemes (expressible.parameterNames declaration membership) lexeme
    inDeclaration

/-!
## Tokens of spelled scripts
-/

theorem exists_append_of_makes {first second : List Lexeme} {tokens : List Token}
    (made : List.Forall₂ Lexeme.Makes (first ++ second) tokens) :
    ∃ firstTokens secondTokens, tokens = firstTokens ++ secondTokens ∧
      List.Forall₂ Lexeme.Makes first firstTokens ∧
      List.Forall₂ Lexeme.Makes second secondTokens := by
  induction first generalizing tokens with
  | nil => exact ⟨[], tokens, rfl, .nil, made⟩
  | cons lexeme later inductionHypothesis =>
      obtain ⟨token, tokensLater, makes, madeLater, rfl⟩ := List.forall₂_cons_left_iff.mp made
      obtain ⟨firstTokens, secondTokens, rfl, madeFirst, madeSecond⟩ :=
        inductionHypothesis madeLater
      exact ⟨token :: firstTokens, secondTokens, rfl, .cons makes madeFirst, madeSecond⟩

theorem eq_singleton_of_makes {lexeme : Lexeme} {tokens : List Token}
    (made : List.Forall₂ Lexeme.Makes [lexeme] tokens) :
    ∃ position, tokens = [lexeme.token position] := by
  obtain ⟨token, tokensLater, ⟨position, rfl⟩, nothing, rfl⟩ := List.forall₂_cons_left_iff.mp made
  rw [List.forall₂_nil_left_iff.mp nothing]
  exact ⟨position, rfl⟩

theorem cons_of_makes {lexeme : Lexeme} {later : List Lexeme} {tokens : List Token}
    (made : List.Forall₂ Lexeme.Makes (lexeme :: later) tokens) :
    ∃ position rest, tokens = lexeme.token position :: rest ∧
      List.Forall₂ Lexeme.Makes later rest := by
  obtain ⟨token, rest, ⟨position, rfl⟩, madeLater, rfl⟩ := List.forall₂_cons_left_iff.mp made
  exact ⟨position, rest, rfl, madeLater⟩

theorem derivesTest_of_makes {kind : Test} {tokens : List Token}
    (made : List.Forall₂ Lexeme.Makes kind.lexemes tokens) : DerivesTest tokens kind := by
  cases kind <;>
    obtain ⟨factPosition, rest, rfl, madeRest⟩ := cons_of_makes made <;>
    obtain ⟨relationPosition, rfl⟩ := eq_singleton_of_makes madeRest <;>
    rw [Lexeme.token_keyword, Lexeme.token_keyword]
  case bornAfter => exact .bornAfter rfl rfl
  case bornBefore => exact .bornBefore rfl rfl
  case speciesIs => exact .speciesIs rfl rfl

theorem derivesValue_of_makes {declared : List String} (names : ∀ name ∈ declared, IsName name)
    {value : Value Date} (expressible : value.IsExpressible declared) {tokens : List Token}
    (made : List.Forall₂ Lexeme.Makes value.lexemes tokens) : DerivesValue tokens value := by
  cases value with
  | date day =>
      obtain ⟨wordPosition, afterWord, rfl, madeAfterWord⟩ := cons_of_makes made
      obtain ⟨colonPosition, afterColon, rfl, madeAfterColon⟩ := cons_of_makes madeAfterWord
      obtain ⟨literalPosition, rfl⟩ := eq_singleton_of_makes madeAfterColon
      rw [Lexeme.token_keyword, Lexeme.token_date expressible.1]
      exact .date rfl rfl rfl rfl (Date.characters_spec expressible.1).2
  | reference name =>
      obtain ⟨wordPosition, afterWord, rfl, madeAfterWord⟩ := cons_of_makes made
      obtain ⟨colonPosition, afterColon, rfl, madeAfterColon⟩ := cons_of_makes madeAfterWord
      obtain ⟨namePosition, rfl⟩ := eq_singleton_of_makes madeAfterColon
      rw [Lexeme.token_keyword, Lexeme.token_name (names name expressible)]
      exact .reference rfl rfl rfl rfl
  | species id => exact False.elim expressible

theorem derivesConditions_of_makes {children : List (Condition Date)}
    (derives : ∀ child ∈ children, ∀ tokens,
      List.Forall₂ Lexeme.Makes child.lexemes tokens → DerivesCondition tokens child)
    {tokens : List Token}
    (made : List.Forall₂ Lexeme.Makes (children.flatMap Condition.lexemes) tokens) :
    DerivesConditions tokens children := by
  induction children generalizing tokens with
  | nil =>
      rw [List.forall₂_nil_left_iff.mp made]
      exact .nil
  | cons child siblings inductionHypothesis =>
      rw [List.forall_mem_cons] at derives
      obtain ⟨first, rest, rfl, madeFirst, madeRest⟩ := exists_append_of_makes made
      exact .cons (derives.1 first madeFirst) (inductionHypothesis derives.2 madeRest)

theorem derivesCondition_of_makes {declared : List String}
    (names : ∀ name ∈ declared, IsName name) {condition : Condition Date}
    (expressible : ∀ leaf ∈ condition.tests, leaf.2.IsExpressible declared) {tokens : List Token}
    (made : List.Forall₂ Lexeme.Makes condition.lexemes tokens) :
    DerivesCondition tokens condition := by
  induction condition using Condition.induction generalizing tokens with
  | test kind value =>
      obtain ⟨start, later, rfl, madeStart, madeLater⟩ := exists_append_of_makes made
      obtain ⟨operand, ending, rfl, madeOperand, madeEnding⟩ := exists_append_of_makes madeLater
      obtain ⟨position, rfl⟩ := eq_singleton_of_makes madeEnding
      have spelled := expressible (kind, value) (List.mem_singleton.mpr rfl)
      exact .test (derivesTest_of_makes madeStart)
        (derivesValue_of_makes names spelled madeOperand) rfl
  | all children inductionHypothesis =>
      rw [Condition.lexemes_all] at made
      rw [Condition.forall_mem_tests_all_iff] at expressible
      obtain ⟨wordPosition, afterWord, rfl, madeAfterWord⟩ := cons_of_makes made
      obtain ⟨openingPosition, afterOpening, rfl, madeAfterOpening⟩ := cons_of_makes madeAfterWord
      obtain ⟨body, ending, rfl, madeBody, madeEnding⟩ := exists_append_of_makes madeAfterOpening
      obtain ⟨closingPosition, rfl⟩ := eq_singleton_of_makes madeEnding
      rw [Lexeme.token_keyword]
      refine .all rfl rfl (derivesConditions_of_makes ?_ madeBody) rfl
      intro child membership childTokens madeChild
      exact inductionHypothesis child membership (expressible child membership) madeChild

theorem derivesDeclarations_of_makes {declarations : List Declaration}
    (names : ∀ declaration ∈ declarations, IsName declaration.name) {tokens : List Token}
    (made : List.Forall₂ Lexeme.Makes (declarations.flatMap Declaration.lexemes) tokens) :
    DerivesDeclarations tokens declarations := by
  induction declarations generalizing tokens with
  | nil =>
      rw [List.forall₂_nil_left_iff.mp made]
      exact .nil
  | cons declaration later inductionHypothesis =>
      rw [List.forall_mem_cons] at names
      obtain ⟨wordPosition, afterWord, rfl, madeAfterWord⟩ := cons_of_makes made
      obtain ⟨namePosition, rest, rfl, madeRest⟩ := cons_of_makes madeAfterWord
      obtain ⟨name, kind⟩ := declaration
      rw [Lexeme.token_keyword, Lexeme.token_name names.1]
      exact .cons rfl rfl rfl (inductionHypothesis names.2 madeRest)

namespace Script

theorem derivesScript_of_makes {maxDepth : Nat} {script : Script}
    (expressible : script.Expressible maxDepth) {tokens : List Token}
    (made : List.Forall₂ Lexeme.Makes script.lexemes tokens) : DerivesScript tokens script := by
  obtain ⟨name, parameters, root⟩ := script
  have names : ∀ name ∈ parameters.map Declaration.name, IsName name :=
    List.forall_mem_map.mpr expressible.parameterNames
  obtain ⟨wordPosition, afterWord, rfl, madeAfterWord⟩ := cons_of_makes made
  obtain ⟨titlePosition, afterTitle, rfl, madeAfterTitle⟩ := cons_of_makes madeAfterWord
  obtain ⟨headingPosition, afterHeading, rfl, madeAfterHeading⟩ := cons_of_makes madeAfterTitle
  obtain ⟨declared, afterDeclared, rfl, madeDeclared, madeAfterDeclared⟩ :=
    exists_append_of_makes madeAfterHeading
  obtain ⟨finishPosition, routine, rfl, madeRoutine⟩ := cons_of_makes madeAfterDeclared
  obtain ⟨routinePosition, afterRoutine, rfl, madeAfterRoutine⟩ := cons_of_makes madeRoutine
  obtain ⟨body, ending, rfl, madeBody, madeEnding⟩ := exists_append_of_makes madeAfterRoutine
  obtain ⟨endPosition, rfl⟩ := eq_singleton_of_makes madeEnding
  simp only [Lexeme.token_keyword, Lexeme.token_name expressible.name]
  exact .intro rfl rfl rfl rfl
    (derivesDeclarations_of_makes expressible.parameterNames madeDeclared) rfl
    (.intro rfl (derivesCondition_of_makes names expressible.values madeBody) rfl)

end Script

end Cohort
