import Cohort.Proofs.Script.Recognition
import Cohort.Proofs.Script.Spelling

/-!
# Which scripts can be written

Reading gives exactly the scripts that can be written: whatever is read from a text can be, and a
script that can be is read back from its spelling, with one blank before each lexeme.
-/

namespace Cohort

/-!
## Tokens of texts
-/

theorem makes_tokensFrom (position : Position) (pieces : List Piece) (last : List Char) :
    List.Forall₂ Lexeme.Makes (pieces.map Piece.lexeme)
      (sentence (tokensFrom position pieces last)) := by
  induction pieces generalizing position with
  | nil =>
      rw [tokensFrom, sentence_of_ended rfl]
      exact .nil
  | cons piece later inductionHypothesis =>
      rw [tokensFrom, sentence_of_token (piece.lexeme.kind_token_ne_endOfInput _)]
      exact .cons ⟨_, rfl⟩ (inductionHypothesis _)

/-- The tokens of a text are those of its lexemes, one for each. -/
theorem makes_sentence_of_valid {split : Split} (valid : split.Valid) :
    List.Forall₂ Lexeme.Makes (split.pieces.map Piece.lexeme)
      (sentence (TokenSource.toList (Scanner.ofString (String.ofList split.text)))) := by
  rw [Scanner.ofString, String.toList_ofList, Split.toList_scanner valid]
  exact makes_tokensFrom .origin split.pieces split.last

/-!
## Reading what is spelled
-/

/-- Lexemes with one blank before each. -/
def spaced (lexemes : List Lexeme) : Split :=
  ⟨lexemes.map fun lexeme => ⟨[' '], lexeme⟩, []⟩

theorem valid_spaced {lexemes : List Lexeme}
    (wellFormed : ∀ lexeme ∈ lexemes, lexeme.WellFormed) : (spaced lexemes).Valid := by
  induction lexemes with
  | nil => exact ⟨List.forall_mem_nil _, List.forall_mem_nil _, .nil, List.forall_mem_nil _⟩
  | cons lexeme later inductionHypothesis =>
      rw [List.forall_mem_cons] at wellFormed
      change (Split.cons ⟨[' '], lexeme⟩ (spaced later)).Valid
      apply Split.valid_cons_iff.mpr
      refine ⟨⟨List.forall_mem_singleton.mpr (by decide), wellFormed.1, ?_⟩,
        inductionHypothesis wellFormed.2⟩
      intro next membership _ _
      obtain ⟨other, -, rfl⟩ := List.mem_map.mp (List.mem_of_mem_head? membership)
      exact List.cons_ne_nil _ _

namespace Script

/-- A text that a script is read from, if there is one. -/
def source (script : Script) : String :=
  String.ofList (spaced script.lexemes).text

theorem scoped_of_expressible {maxDepth : Nat} {script : Script}
    (expressible : script.Expressible maxDepth) : script.Scoped maxDepth := by
  refine ⟨expressible.distinctNames, ?_, expressible.depth⟩
  rintro ⟨kind, value⟩ membership name rfl
  exact expressible.values _ membership

theorem ofSource_source {maxDepth : Nat} {script : Script}
    (expressible : script.Expressible maxDepth) :
    ofSource script.source maxDepth = .ok script := by
  have made := makes_sentence_of_valid (valid_spaced (wellFormed_lexemes expressible))
  have lexemes : (spaced script.lexemes).pieces.map Piece.lexeme = script.lexemes := by
    rw [spaced, List.map_map]
    exact List.map_id' script.lexemes
  rw [lexemes] at made
  exact parse_source_eq_ok_iff.mpr
    ⟨derivesScript_of_makes expressible made, scoped_of_expressible expressible⟩

end Script

/-!
## What is read can be spelled
-/

/-- Whether a token can come from a text. -/
def Token.IsScanned (token : Token) : Prop :=
  ∃ lexeme : Lexeme, lexeme.WellFormed ∧ lexeme.Makes token

theorem isScanned_of_makes {lexemes : List Lexeme} {tokens : List Token}
    (wellFormed : ∀ lexeme ∈ lexemes, lexeme.WellFormed)
    (made : List.Forall₂ Lexeme.Makes lexemes tokens) : ∀ token ∈ tokens, token.IsScanned := by
  induction made with
  | nil => exact List.forall_mem_nil _
  | cons makes madeLater inductionHypothesis =>
      rw [List.forall_mem_cons] at wellFormed ⊢
      exact ⟨⟨_, wellFormed.1, makes⟩, inductionHypothesis wellFormed.2⟩

theorem isScanned_of_mem_sentence (source : String) :
    ∀ token ∈ sentence (TokenSource.toList (Scanner.ofString source)), token.IsScanned := by
  obtain ⟨split, valid, text⟩ := Split.exists_valid source.toList
  have made := makes_sentence_of_valid valid
  rw [text, String.ofList_toList] at made
  exact isScanned_of_makes (List.forall_mem_map.mpr valid.lexemes) made

namespace Token.IsScanned

theorem isName {token : Token} {name : String} (scanned : token.IsScanned)
    (identifier : token.kind = .identifier) (named : token.text = some name) : IsName name := by
  obtain ⟨lexeme, wellFormed, position, rfl⟩ := scanned
  obtain ⟨kind, text, made, denotes⟩ := lexeme.denotes_token position
  rw [made] at identifier named
  cases denotes with
  | mark symbol => contradiction
  | keyword keyword => contradiction
  | dateLiteral shape => contradiction
  | @identifier characters unreserved noDate =>
      obtain rfl := Option.some.inj named
      refine ⟨?_, ?_, ?_⟩
      · rw [String.toList_ofList]
        exact wellFormed
      · rintro keyword same
        apply unreserved keyword
        rw [same, String.toList_ofList]
      · rwa [String.toList_ofList]

theorem year_nonneg {token : Token} {text : String} {day : Date} (scanned : token.IsScanned)
    (literal : token.kind = .dateLiteral) (spelled : token.text = some text)
    (found : Date.ofLiteral? text = some day) : 0 ≤ day.year := by
  obtain ⟨lexeme, -, position, rfl⟩ := scanned
  obtain ⟨kind, carried, made, denotes⟩ := lexeme.denotes_token position
  rw [made] at literal spelled
  cases denotes with
  | mark symbol => contradiction
  | keyword keyword => contradiction
  | identifier unreserved noDate => contradiction
  | dateLiteral shape =>
      obtain rfl := Option.some.inj spelled
      exact Date.year_nonneg_of_ofLiteral? shape found

end Token.IsScanned

theorem DerivesValue.isExpressible {tokens : List Token} {value : Value Date}
    {declared : List String} (derives : DerivesValue tokens value)
    (scanned : ∀ token ∈ tokens, token.IsScanned) (references : value.RefersOnlyTo declared) :
    value.IsExpressible declared := by
  cases derives with
  | @date word colon literal text day _ _ isLiteral carried found =>
      have inTokens : literal ∈ [word, colon, literal] := by simp
      exact ⟨(scanned literal inTokens).year_nonneg isLiteral carried found, day.yearInRange.2⟩
  | reference => exact references _ rfl

mutual

theorem DerivesCondition.isExpressible {tokens : List Token} {condition : Condition Date}
    {declared : List String} (derives : DerivesCondition tokens condition)
    (scanned : ∀ token ∈ tokens, token.IsScanned) (references : condition.RefersOnlyTo declared) :
    ∀ leaf ∈ condition.tests, leaf.2.IsExpressible declared := by
  cases derives with
  | test derivesTest derivesValue semicolon =>
      rw [Condition.tests_test, List.forall_mem_singleton]
      rw [List.forall_mem_append, List.forall_mem_append] at scanned
      rw [Condition.refersOnlyTo_test_iff] at references
      exact derivesValue.isExpressible scanned.2.1 references
  | all word opening derivesBody closing =>
      rw [List.forall_mem_cons, List.forall_mem_cons, List.forall_mem_append] at scanned
      rw [Condition.refersOnlyTo_all_iff] at references
      rw [Condition.forall_mem_tests_all_iff]
      exact derivesBody.isExpressible scanned.2.2.1 references

theorem DerivesConditions.isExpressible {tokens : List Token} {children : List (Condition Date)}
    {declared : List String} (derives : DerivesConditions tokens children)
    (scanned : ∀ token ∈ tokens, token.IsScanned)
    (references : ∀ child ∈ children, child.RefersOnlyTo declared) :
    ∀ child ∈ children, ∀ leaf ∈ child.tests, leaf.2.IsExpressible declared := by
  cases derives with
  | nil => exact List.forall_mem_nil _
  | cons derivesChild derivesSiblings =>
      rw [List.forall_mem_append] at scanned
      rw [List.forall_mem_cons] at references ⊢
      exact ⟨derivesChild.isExpressible scanned.1 references.1,
        derivesSiblings.isExpressible scanned.2 references.2⟩

end

theorem DerivesDeclarations.isName {tokens : List Token} {declarations : List Declaration}
    (derives : DerivesDeclarations tokens declarations)
    (scanned : ∀ token ∈ tokens, token.IsScanned) :
    ∀ declaration ∈ declarations, IsName declaration.name := by
  induction derives with
  | nil => exact List.forall_mem_nil _
  | cons word identifier named later inductionHypothesis =>
      rw [List.forall_mem_cons, List.forall_mem_cons] at scanned
      rw [List.forall_mem_cons]
      exact ⟨scanned.2.1.isName identifier named, inductionHypothesis scanned.2.2⟩

namespace Script

theorem expressible_of_ofSource {source : String} {maxDepth : Nat} {script : Script}
    (read : ofSource source maxDepth = .ok script) : script.Expressible maxDepth := by
  obtain ⟨derives, wellScoped⟩ := parse_source_eq_ok_iff.mp read
  have scanned := isScanned_of_mem_sentence source
  cases lexed : sentence (TokenSource.toList (Scanner.ofString source)) with
  | nil =>
      rw [lexed] at derives
      cases derives
  | cons first rest =>
      rw [lexed] at derives scanned
      cases derives with
      | intro word title carried heading declarations finish routine =>
          cases routine with
          | intro routineHeading derivesRoot ending =>
              simp only [List.forall_mem_cons, List.forall_mem_append] at scanned
              obtain ⟨-, titleScanned, -, declaredScanned, -, -, bodyScanned, -⟩ := scanned
              exact ⟨titleScanned.isName title carried, declarations.isName declaredScanned,
                wellScoped.distinctNames, wellScoped.depth,
                derivesRoot.isExpressible bodyScanned wellScoped.references⟩

/-- The scripts that are read from texts are exactly those that can be written. -/
theorem exists_source_iff (script : Script) (maxDepth : Nat) :
    (∃ source, ofSource source maxDepth = .ok script) ↔ script.Expressible maxDepth := by
  constructor
  · rintro ⟨source, read⟩
    exact expressible_of_ofSource read
  · intro expressible
    exact ⟨script.source, ofSource_source expressible⟩

end Script

end Cohort
