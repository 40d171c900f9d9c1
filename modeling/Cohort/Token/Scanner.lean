import Cohort.Text.Blank
import Cohort.Token.Source

/-!
Splitting source text into tokens.

Blank characters separate tokens and marks stand alone; every other run of characters, as long as
it can be, is a word.  A word is a keyword, a date literal or an identifier, so every text can be
split.
-/

namespace Cohort

/-- Whether a word has the shape `DD/MM/YYYY` with a day from 01 to 31 and a month from 01 to
12.  Whether the calendar has that day is another matter. -/
def isDateShape : List Char → Bool
  | [d₁, d₂, '/', m₁, m₂, '/', y₁, y₂, y₃, y₄] =>
      let day := Nat.ofDigitChars 10 [d₁, d₂] 0
      let month := Nat.ofDigitChars 10 [m₁, m₂] 0
      [d₁, d₂, m₁, m₂, y₁, y₂, y₃, y₄].all Char.isDigit
        && 1 ≤ day && day ≤ 31 && 1 ≤ month && month ≤ 12
  | _ => false

/-- Whether a character belongs to a word: it is neither blank nor a mark. -/
def isWordCharacter (character : Char) : Bool :=
  !Text.isBlank character && (Mark.ofCharacter? character).isNone

def Token.ofWord (word : List Char) (position : Position) : Token :=
  let text := String.ofList word
  match Keyword.ofSpelling? text with
  | some keyword => ⟨.keyword keyword, none, position⟩
  | none => ⟨if isDateShape word then .dateLiteral else .identifier, some text, position⟩

structure Scanner where
  rest : List Char
  position : Position

namespace Scanner

def ofString (source : String) : Scanner :=
  ⟨source.toList, .origin⟩

def skipWhile (predicate : Char → Bool) (scanner : Scanner) : Scanner :=
  ⟨scanner.rest.dropWhile predicate,
    scanner.position.advance (scanner.rest.takeWhile predicate)⟩

/-- The next token; at the end of the text, an end of input without end. -/
def next (scanner : Scanner) : Token × Scanner :=
  let start := scanner.skipWhile Text.isBlank
  match start.rest with
  | [] => (⟨.endOfInput, none, start.position⟩, start)
  | character :: rest =>
      match Mark.ofCharacter? character with
      | some mark => (⟨.mark mark, none, start.position⟩, ⟨rest, start.position.after character⟩)
      | none =>
          (Token.ofWord (start.rest.takeWhile isWordCharacter) start.position,
            start.skipWhile isWordCharacter)

@[simp]
theorem rest_skipWhile (predicate : Char → Bool) (scanner : Scanner) :
    (scanner.skipWhile predicate).rest = scanner.rest.dropWhile predicate :=
  rfl

theorem next_of_nil {scanner : Scanner} (start : (scanner.skipWhile Text.isBlank).rest = []) :
    scanner.next =
      (⟨.endOfInput, none, (scanner.skipWhile Text.isBlank).position⟩,
        scanner.skipWhile Text.isBlank) := by
  unfold next
  dsimp only
  rw [start]

theorem next_of_mark {scanner : Scanner} {character : Char} {rest : List Char} {mark : Mark}
    (start : (scanner.skipWhile Text.isBlank).rest = character :: rest)
    (found : Mark.ofCharacter? character = some mark) :
    scanner.next =
      (⟨.mark mark, none, (scanner.skipWhile Text.isBlank).position⟩,
        ⟨rest, (scanner.skipWhile Text.isBlank).position.after character⟩) := by
  unfold next
  dsimp only
  rw [start]
  simp only [found]

theorem next_of_word {scanner : Scanner} {character : Char} {rest : List Char}
    (start : (scanner.skipWhile Text.isBlank).rest = character :: rest)
    (missing : Mark.ofCharacter? character = none) :
    scanner.next =
      (Token.ofWord ((character :: rest).takeWhile isWordCharacter)
          (scanner.skipWhile Text.isBlank).position,
        (scanner.skipWhile Text.isBlank).skipWhile isWordCharacter) := by
  unfold next
  dsimp only
  rw [start]
  simp only [missing]

theorem not_isBlank_of_skipWhile {scanner : Scanner} {character : Char} {rest : List Char}
    (start : (scanner.skipWhile Text.isBlank).rest = character :: rest) :
    Text.isBlank character = false := by
  have head := List.head?_dropWhile_not Text.isBlank scanner.rest
  rw [rest_skipWhile] at start
  simpa [start] using head

/-- Every token but the end of input uses up characters. -/
theorem length_rest_next (scanner : Scanner)
    (unfinished : scanner.next.1.kind ≠ .endOfInput) :
    scanner.next.2.rest.length < scanner.rest.length := by
  have skipped : (scanner.skipWhile Text.isBlank).rest.length ≤ scanner.rest.length :=
    (List.dropWhile_sublist _).length_le
  cases start : (scanner.skipWhile Text.isBlank).rest with
  | nil => simp [next_of_nil start] at unfinished
  | cons character rest =>
      rw [start, List.length_cons] at skipped
      cases found : Mark.ofCharacter? character with
      | some mark =>
          rw [next_of_mark start found]
          exact skipped
      | none =>
          have inWord : isWordCharacter character = true := by
            simp [isWordCharacter, not_isBlank_of_skipWhile start, found]
          have shorter : (rest.dropWhile isWordCharacter).length ≤ rest.length :=
            (List.dropWhile_sublist _).length_le
          rw [next_of_word start found, rest_skipWhile, start, List.dropWhile_cons_of_pos inWord]
          omega

instance : TokenSource Scanner where
  next := next
  remaining scanner := scanner.rest.length
  remaining_next := length_rest_next

end Scanner

def tokenize (source : String) : List Token :=
  TokenSource.toList (Scanner.ofString source)

end Cohort
