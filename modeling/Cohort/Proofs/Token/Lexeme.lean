import Cohort.Token.Scanner
import Cohort.Proofs.Calendar.DateLiteral

/-!
# Lexemes

The marks and words that a text is made of apart from blanks, and the token that each of them
makes.
-/

namespace Cohort

def IsGap (characters : List Char) : Prop :=
  ∀ character ∈ characters, Text.isBlank character = true

/-- Some characters, none of them blank or a mark. -/
structure IsWord (characters : List Char) : Prop where
  nonempty : characters ≠ []
  noBlank : ∀ character ∈ characters, Text.isBlank character = false
  noMark : ∀ mark : Mark, mark.character ∉ characters

/-- The part of a text that makes one token. -/
inductive Lexeme where
  | mark (mark : Mark)
  | word (characters : List Char)

namespace Lexeme

def characters : Lexeme → List Char
  | mark symbol => [symbol.character]
  | word characters => characters

def isWord : Lexeme → Bool
  | mark _ => false
  | word _ => true

def WellFormed : Lexeme → Prop
  | mark _ => True
  | word characters => IsWord characters

/-- The kind and the text of the token that a lexeme makes: a mark or a keyword stands for itself,
and any other word keeps its characters. -/
inductive Denotes : Lexeme → Token.Kind → Option String → Prop where
  | mark (mark : Mark) : Denotes (.mark mark) (.mark mark) none
  | keyword (keyword : Keyword) :
      Denotes (.word keyword.spelling.toList) (.keyword keyword) none
  | dateLiteral {characters : List Char} : HasDateShape characters →
      Denotes (.word characters) .dateLiteral (some (String.ofList characters))
  | identifier {characters : List Char} :
      (∀ keyword : Keyword, keyword.spelling.toList ≠ characters) → ¬HasDateShape characters →
      Denotes (.word characters) .identifier (some (String.ofList characters))

def token (position : Position) : Lexeme → Token
  | mark symbol => ⟨.mark symbol, none, position⟩
  | word characters => .ofWord characters position

end Lexeme

/-!
## Characters of lexemes
-/

theorem Mark.ofCharacter?_eq_none_iff {character : Char} :
    Mark.ofCharacter? character = none ↔ ∀ mark : Mark, mark.character ≠ character := by
  constructor
  · rintro missing mark rfl
    rw [Mark.ofCharacter?_character] at missing
    contradiction
  · intro different
    cases found : Mark.ofCharacter? character with
    | none => rfl
    | some mark => exact absurd (Mark.character_of_ofCharacter? found) (different mark)

theorem Mark.isBlank_character (mark : Mark) : Text.isBlank mark.character = false := by
  cases mark <;> decide

theorem isWordCharacter_iff {character : Char} :
    isWordCharacter character = true ↔
      Text.isBlank character = false ∧ ∀ mark : Mark, mark.character ≠ character := by
  rw [isWordCharacter, Bool.and_eq_true, Bool.not_eq_true', Option.isNone_iff_eq_none,
    Mark.ofCharacter?_eq_none_iff]

theorem isWord_iff {characters : List Char} :
    IsWord characters ↔
      characters ≠ [] ∧ ∀ character ∈ characters, isWordCharacter character = true := by
  constructor
  · rintro ⟨nonempty, noBlank, noMark⟩
    refine ⟨nonempty, fun character membership => ?_⟩
    apply isWordCharacter_iff.mpr
    exact ⟨noBlank character membership, fun mark same => noMark mark (same ▸ membership)⟩
  · rintro ⟨nonempty, inWord⟩
    refine ⟨nonempty, fun character membership => ?_, fun mark membership => ?_⟩
    · exact (isWordCharacter_iff.mp (inWord character membership)).1
    · exact (isWordCharacter_iff.mp (inWord _ membership)).2 mark rfl

theorem not_isWordCharacter_of_isBlank {character : Char} (blank : Text.isBlank character = true) :
    isWordCharacter character = false := by
  simp [isWordCharacter, blank]

theorem Mark.not_isWordCharacter (mark : Mark) : isWordCharacter mark.character = false := by
  simp [isWordCharacter, Mark.ofCharacter?_character]

theorem Keyword.isWord_spelling (keyword : Keyword) : IsWord keyword.spelling.toList := by
  rw [isWord_iff, ← List.all_eq_true]
  cases keyword <;> decide

theorem isWordCharacter_of_isDigit {character : Char} (digit : character.isDigit = true) :
    isWordCharacter character = true := by
  have inWords : ∀ number < 10, isWordCharacter (Nat.digitChar number) = true := by decide
  obtain ⟨number, small, rfl⟩ := Text.exists_digitChar_of_isDigit digit
  exact inWords number small

theorem isWord_dateCharacters (day month year : Nat) : IsWord (dateCharacters day month year) := by
  have digits : ∀ width number, ∀ character ∈ Text.fixedWidth width number,
      isWordCharacter character = true :=
    fun width number character membership =>
      isWordCharacter_of_isDigit (Text.isDigit_of_mem_fixedWidth membership)
  have slash : isWordCharacter '/' = true := by decide
  apply isWord_iff.mpr
  constructor
  · exact List.append_ne_nil_of_right_ne_nil _ (List.cons_ne_nil _ _)
  · simp only [dateCharacters, List.forall_mem_append, List.forall_mem_cons]
    exact ⟨digits 2 day, slash, digits 2 month, slash, digits 4 year⟩

theorem HasDateShape.isWord {characters : List Char} (shape : HasDateShape characters) :
    IsWord characters := by
  obtain ⟨day, month, year, -, -, -, rfl⟩ := shape
  exact isWord_dateCharacters day month year

theorem HasDateShape.length_eq {characters : List Char} (shape : HasDateShape characters) :
    characters.length = 10 := by
  obtain ⟨day, month, year, -, -, -, rfl⟩ := shape
  simp [dateCharacters, Text.length_fixedWidth]

namespace Lexeme

theorem characters_ne_nil {lexeme : Lexeme} (wellFormed : lexeme.WellFormed) :
    lexeme.characters ≠ [] := by
  cases lexeme with
  | mark mark => exact List.cons_ne_nil _ _
  | word characters => exact wellFormed.nonempty

theorem not_isBlank_of_mem {lexeme : Lexeme} (wellFormed : lexeme.WellFormed) {character : Char}
    (membership : character ∈ lexeme.characters) : Text.isBlank character = false := by
  cases lexeme with
  | mark mark =>
      rw [List.mem_singleton.mp membership]
      exact mark.isBlank_character
  | word characters => exact wellFormed.noBlank character membership

theorem eq_of_characters_eq {first second : Lexeme} (firstWellFormed : first.WellFormed)
    (secondWellFormed : second.WellFormed) (same : first.characters = second.characters) :
    first = second := by
  cases first with
  | mark mark =>
      cases second with
      | mark other =>
          have found := Mark.ofCharacter?_character mark
          rw [List.singleton_inj.mp same, Mark.ofCharacter?_character] at found
          rw [Option.some.inj found]
      | word characters =>
          have membership : mark.character ∈ characters := by
            rw [← show [mark.character] = characters from same]
            exact List.mem_singleton.mpr rfl
          exact absurd membership (secondWellFormed.noMark mark)
  | word characters =>
      cases second with
      | mark other =>
          have membership : other.character ∈ characters := by
            rw [show characters = [other.character] from same]
            exact List.mem_singleton.mpr rfl
          exact absurd membership (firstWellFormed.noMark other)
      | word others => exact congrArg word same

theorem kind_token_ne_endOfInput (lexeme : Lexeme) (position : Position) :
    (lexeme.token position).kind ≠ .endOfInput := by
  cases lexeme with
  | mark mark => simp [token]
  | word characters =>
      simp only [token, Token.ofWord]
      cases Keyword.ofSpelling? (String.ofList characters) with
      | some keyword => simp
      | none => by_cases shape : isDateShape characters = true <;> simp [shape]

end Lexeme

/-!
## Tokens of lexemes
-/

theorem Keyword.ofSpelling?_eq_none_iff {characters : List Char} :
    ofSpelling? (String.ofList characters) = none ↔
      ∀ keyword : Keyword, keyword.spelling.toList ≠ characters := by
  constructor
  · rintro missing keyword rfl
    rw [String.ofList_toList, ofSpelling?_spelling] at missing
    contradiction
  · intro different
    cases found : ofSpelling? (String.ofList characters) with
    | none => rfl
    | some keyword =>
        apply absurd _ (different keyword)
        rw [spelling_of_ofSpelling? found, String.toList_ofList]

/-- No reserved word looks like a date. -/
theorem HasDateShape.unreserved {characters : List Char} (hasShape : HasDateShape characters)
    (keyword : Keyword) : keyword.spelling.toList ≠ characters := by
  have shape := isDateShape_iff.mpr hasShape
  intro same
  rw [← same] at shape
  cases keyword <;> contradiction

theorem Lexeme.denotes_token (lexeme : Lexeme) (position : Position) :
    ∃ kind text, lexeme.token position = ⟨kind, text, position⟩ ∧ lexeme.Denotes kind text := by
  cases lexeme with
  | mark symbol => exact ⟨_, _, rfl, .mark symbol⟩
  | word characters =>
      rw [token, Token.ofWord]
      cases found : Keyword.ofSpelling? (String.ofList characters) with
      | some keyword =>
          refine ⟨_, _, rfl, ?_⟩
          have spelled := congrArg String.toList (Keyword.spelling_of_ofSpelling? found)
          rw [String.toList_ofList] at spelled
          rw [← spelled]
          exact .keyword keyword
      | none =>
          by_cases shape : isDateShape characters = true
          · refine ⟨_, _, rfl, ?_⟩
            rw [if_pos shape]
            exact .dateLiteral (isDateShape_iff.mp shape)
          · refine ⟨_, _, rfl, ?_⟩
            rw [if_neg shape]
            exact .identifier (Keyword.ofSpelling?_eq_none_iff.mp found)
              (fun has => shape (isDateShape_iff.mpr has))

theorem takeWhile_append_of_stops {predicate : Char → Bool} {first rest : List Char}
    (passes : ∀ character ∈ first, predicate character = true)
    (stops : ∀ character ∈ rest.head?, predicate character = false) :
    (first ++ rest).takeWhile predicate = first ∧ (first ++ rest).dropWhile predicate = rest := by
  rw [List.takeWhile_append_of_pos passes, List.dropWhile_append_of_pos passes]
  cases rest with
  | nil => simp
  | cons character rest => simp [stops character rfl]

theorem Scanner.skipWhile_append {predicate : Char → Bool} {first rest : List Char}
    (passes : ∀ character ∈ first, predicate character = true)
    (stops : ∀ character ∈ rest.head?, predicate character = false) (position : Position) :
    (Scanner.mk (first ++ rest) position).skipWhile predicate =
      ⟨rest, position.advance first⟩ := by
  obtain ⟨taken, dropped⟩ := takeWhile_append_of_stops passes stops
  rw [Scanner.skipWhile, taken, dropped]

end Cohort
