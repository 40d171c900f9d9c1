/-!
Tokens: the words and marks of source text, with the place where each begins.
-/

namespace Cohort

/-- A place in source text: line and column from zero, counted in characters as 32-bit words. -/
structure Position where
  line : UInt32
  column : UInt32
deriving DecidableEq

namespace Position

def origin : Position :=
  ⟨0, 0⟩

def after (position : Position) (character : Char) : Position :=
  if character = '\n' then ⟨position.line + 1, 0⟩ else ⟨position.line, position.column + 1⟩

def advance (position : Position) (characters : List Char) : Position :=
  characters.foldl after position

@[simp]
theorem advance_nil (position : Position) : position.advance [] = position :=
  rfl

@[simp]
theorem advance_cons (position : Position) (character : Char) (rest : List Char) :
    position.advance (character :: rest) = (position.after character).advance rest :=
  rfl

@[simp]
theorem advance_append (position : Position) (first second : List Char) :
    position.advance (first ++ second) = (position.advance first).advance second :=
  List.foldl_append

def text (position : Position) : String :=
  s!"line {(position.line + 1).toNat}, column {(position.column + 1).toNat}"

end Position

inductive Keyword where
  | name
  | parameters
  | finish
  | routine
  | species
  | born
  | after
  | before
  | date
  | param
  | and
  | is
deriving DecidableEq

namespace Keyword

/-- How a reserved word is spelled; case matters. -/
def spelling : Keyword → String
  | name => "NAME"
  | parameters => "PARAMETERS"
  | finish => "END"
  | routine => "ROUTINE"
  | species => "SPECIES"
  | born => "BORN"
  | after => "AFTER"
  | before => "BEFORE"
  | date => "DATE"
  | param => "PARAM"
  | and => "AND"
  | is => "IS"

def all : List Keyword :=
  [name, parameters, finish, routine, species, born, after, before, date, param, and, is]

def ofSpelling? (word : String) : Option Keyword :=
  all.find? (·.spelling == word)

theorem ofSpelling?_spelling (keyword : Keyword) :
    ofSpelling? keyword.spelling = some keyword := by
  cases keyword <;> decide

theorem spelling_of_ofSpelling? {word : String} {keyword : Keyword}
    (found : ofSpelling? word = some keyword) : keyword.spelling = word := by
  simpa using List.find?_some found

end Keyword

/-- The marks that stand for themselves, next to a word or apart from it. -/
inductive Mark where
  | leftBrace
  | rightBrace
  | colon
  | semicolon
deriving DecidableEq

namespace Mark

def character : Mark → Char
  | leftBrace => '\x7b'
  | rightBrace => '\x7d'
  | colon => ':'
  | semicolon => ';'

def all : List Mark :=
  [leftBrace, rightBrace, colon, semicolon]

def ofCharacter? (character : Char) : Option Mark :=
  all.find? (·.character == character)

theorem ofCharacter?_character (mark : Mark) : ofCharacter? mark.character = some mark := by
  cases mark <;> decide

theorem character_of_ofCharacter? {character : Char} {mark : Mark}
    (found : ofCharacter? character = some mark) : mark.character = character := by
  simpa using List.find?_some found

end Mark

inductive Token.Kind where
  | identifier
  /-- A word of the shape `DD/MM/YYYY`. -/
  | dateLiteral
  | mark (mark : Mark)
  | keyword (keyword : Keyword)
  | endOfInput
deriving DecidableEq

def Token.Kind.text : Token.Kind → String
  | .identifier => "identifier"
  | .dateLiteral => "date literal"
  | .mark symbol => String.ofList ['\'', symbol.character, '\'']
  | .keyword word => word.spelling
  | .endOfInput => "end of input"

/-- A token and where it begins.  Only identifiers and date literals need their text, but any
token may carry one. -/
structure Token where
  kind : Token.Kind
  text : Option String
  position : Position
deriving DecidableEq

def Token.lexeme (token : Token) : String :=
  token.text.getD ""

end Cohort
