import Cohort.Proofs.Token.Lexeme
import Mathlib.Data.List.Chain
import Mathlib.Data.List.DropRight

/-!
# How a text splits into tokens

A text is cut into lexemes with blanks between them in one way only, once words that follow each
other have to be kept apart.  Scanning a text gives the tokens of these lexemes, each at the place
where it begins.
-/

namespace Cohort

/-- A lexeme behind the blanks that come before it. -/
structure Piece where
  gap : List Char
  lexeme : Lexeme

def Piece.characters (piece : Piece) : List Char :=
  piece.gap ++ piece.lexeme.characters

/-- A text cut into pieces, and what comes after the last lexeme. -/
structure Split where
  pieces : List Piece
  last : List Char

namespace Split

def text (split : Split) : List Char :=
  split.pieces.flatMap Piece.characters ++ split.last

def cons (piece : Piece) (split : Split) : Split :=
  ⟨piece :: split.pieces, split.last⟩

/-- Whether the lexemes are marks and words with nothing but blanks between them, and no word goes
on in the next one. -/
structure Valid (split : Split) : Prop where
  gaps : ∀ piece ∈ split.pieces, IsGap piece.gap
  lexemes : ∀ piece ∈ split.pieces, piece.lexeme.WellFormed
  apart : split.pieces.IsChain fun first second =>
    first.lexeme.isWord = true → second.lexeme.isWord = true → second.gap ≠ []
  last : IsGap split.last

end Split

/-- Whether a position is the one after some characters: its line counts the line breaks in them,
and its column counts the characters since the last of these. -/
structure Position.IsAfter (position : Position) (characters : List Char) : Prop where
  line : position.line.toNat = characters.count '\n'
  column : position.column.toNat = (characters.rtakeWhile (· ≠ '\n')).length

/-- Whether tokens are those of some pieces that come after other characters, each token where
its lexeme begins, and at last the end of input. -/
inductive Yields : (before : List Char) → List Piece → (last : List Char) → List Token → Prop where
  | finished {before last : List Char} {position : Position} :
      position.IsAfter (before ++ last) →
      Yields before [] last [⟨.endOfInput, none, position⟩]
  | piece {before last : List Char} {piece : Piece} {later : List Piece} {kind : Token.Kind}
      {text : Option String} {position : Position} {tokens : List Token} :
      piece.lexeme.Denotes kind text → position.IsAfter (before ++ piece.gap) →
      Yields (before ++ piece.characters) later last tokens →
      Yields before (piece :: later) last (⟨kind, text, position⟩ :: tokens)

/-- One token is scanned for the first piece, if a word in it does not go on behind it. -/
theorem Scanner.next_piece {piece : Piece} {rest : List Char} (gap : IsGap piece.gap)
    (wellFormed : piece.lexeme.WellFormed)
    (ends : piece.lexeme.isWord = true →
      ∀ character ∈ rest.head?, isWordCharacter character = false)
    (position : Position) :
    (Scanner.mk (piece.characters ++ rest) position).next =
      (piece.lexeme.token (position.advance piece.gap),
        ⟨rest, position.advance piece.characters⟩) := by
  obtain ⟨blanks, lexeme⟩ := piece
  have skipped : (Scanner.mk (blanks ++ (lexeme.characters ++ rest)) position).skipWhile
      Text.isBlank = ⟨lexeme.characters ++ rest, position.advance blanks⟩ := by
    apply Scanner.skipWhile_append gap
    intro character membership
    apply Lexeme.not_isBlank_of_mem wellFormed
    rw [List.head?_append_of_ne_nil _ (Lexeme.characters_ne_nil wellFormed)] at membership
    exact List.mem_of_mem_head? membership
  have start := congrArg Scanner.rest skipped
  rw [Piece.characters, List.append_assoc, Position.advance_append]
  cases lexeme with
  | mark symbol =>
      rw [Scanner.next_of_mark start (Mark.ofCharacter?_character symbol), skipped]
      rfl
  | word characters =>
      obtain ⟨nonempty, inWord⟩ := isWord_iff.mp wellFormed
      have taken := (takeWhile_append_of_stops inWord (ends rfl)).1
      have whole := Scanner.skipWhile_append inWord (ends rfl) (position.advance blanks)
      obtain ⟨character, later, rfl⟩ := List.exists_cons_of_ne_nil nonempty
      have noMark : Mark.ofCharacter? character = none :=
        Mark.ofCharacter?_eq_none_iff.mpr
          (isWordCharacter_iff.mp (inWord character List.mem_cons_self)).2
      rw [Scanner.next_of_word start noMark, skipped]
      exact Prod.ext (congrArg (Token.ofWord · (position.advance blanks)) taken) whole

/-- Scanning goes on behind the first piece as if it began there. -/
theorem Scanner.toList_piece {piece : Piece} {rest : List Char} (gap : IsGap piece.gap)
    (wellFormed : piece.lexeme.WellFormed)
    (ends : piece.lexeme.isWord = true →
      ∀ character ∈ rest.head?, isWordCharacter character = false)
    (position : Position) :
    TokenSource.toList (Scanner.mk (piece.characters ++ rest) position) =
      piece.lexeme.token (position.advance piece.gap) ::
        TokenSource.toList (Scanner.mk rest (position.advance piece.characters)) := by
  have scanned := Scanner.next_piece gap wellFormed ends position
  have unfinished : (TokenSource.next (Scanner.mk (piece.characters ++ rest) position)).1.kind ≠
      .endOfInput := by
    change (Scanner.next _).1.kind ≠ _
    rw [scanned]
    exact piece.lexeme.kind_token_ne_endOfInput _
  rw [TokenSource.toList_of_token unfinished]
  change (Scanner.next _).1 :: TokenSource.toList (Scanner.next _).2 = _
  rw [scanned]

namespace Split

theorem text_cons (piece : Piece) (split : Split) :
    (cons piece split).text = piece.characters ++ split.text := by
  rw [text, text, cons, List.flatMap_cons, List.append_assoc]

theorem valid_cons_iff {piece : Piece} {split : Split} :
    (cons piece split).Valid ↔
      (IsGap piece.gap ∧ piece.lexeme.WellFormed ∧
        (∀ next ∈ split.pieces.head?, piece.lexeme.isWord = true → next.lexeme.isWord = true →
          next.gap ≠ [])) ∧ split.Valid := by
  constructor
  · rintro ⟨gaps, lexemes, apart, last⟩
    obtain ⟨gap, laterGaps⟩ := List.forall_mem_cons.mp gaps
    obtain ⟨lexeme, laterLexemes⟩ := List.forall_mem_cons.mp lexemes
    obtain ⟨nextApart, laterApart⟩ := List.isChain_cons.mp apart
    exact ⟨⟨gap, lexeme, nextApart⟩, laterGaps, laterLexemes, laterApart, last⟩
  · rintro ⟨⟨gap, lexeme, nextApart⟩, laterGaps, laterLexemes, laterApart, last⟩
    exact ⟨List.forall_mem_cons.mpr ⟨gap, laterGaps⟩,
      List.forall_mem_cons.mpr ⟨lexeme, laterLexemes⟩,
      List.isChain_cons.mpr ⟨nextApart, laterApart⟩, last⟩

/-- Behind a word there is no character that the word could go on with. -/
theorem Valid.ends {piece : Piece} {split : Split} (valid : (cons piece split).Valid)
    (word : piece.lexeme.isWord = true) :
    ∀ character ∈ split.text.head?, isWordCharacter character = false := by
  obtain ⟨⟨-, -, apart⟩, gaps, lexemes, -, last⟩ := valid_cons_iff.mp valid
  obtain ⟨pieces, blanks⟩ := split
  cases pieces with
  | nil =>
      intro character membership
      exact not_isWordCharacter_of_isBlank (last character (List.mem_of_mem_head? membership))
  | cons next later =>
      obtain ⟨nextGap, nextLexeme⟩ := next
      intro character membership
      rw [text, List.flatMap_cons, Piece.characters, List.append_assoc, List.append_assoc]
        at membership
      cases nextGap with
      | cons blank blanksLater =>
          -- Something blank comes first.
          rw [← Option.some.inj membership]
          apply not_isWordCharacter_of_isBlank
          exact gaps ⟨blank :: blanksLater, nextLexeme⟩ List.mem_cons_self blank List.mem_cons_self
      | nil =>
          cases nextLexeme with
          | mark symbol =>
              rw [← Option.some.inj membership]
              exact symbol.not_isWordCharacter
          | word characters => exact absurd rfl (apart _ rfl word rfl)

end Split

/-- The tokens of some pieces from a position on, with the end of input behind them. -/
def tokensFrom : (position : Position) → List Piece → (last : List Char) → List Token
  | position, [], last => [⟨.endOfInput, none, position.advance last⟩]
  | position, piece :: later, last =>
      piece.lexeme.token (position.advance piece.gap) ::
        tokensFrom (position.advance piece.characters) later last

namespace Split

theorem next_of_nil {last : List Char} (gap : IsGap last) (position : Position) :
    (Scanner.mk last position).next =
      (⟨.endOfInput, none, position.advance last⟩, ⟨[], position.advance last⟩) := by
  have skipped : (Scanner.mk (last ++ []) position).skipWhile Text.isBlank =
      ⟨[], position.advance last⟩ :=
    Scanner.skipWhile_append gap (by simp) position
  rw [List.append_nil] at skipped
  rw [Scanner.next_of_nil (congrArg Scanner.rest skipped), skipped]

theorem next_of_cons {piece : Piece} {split : Split} (valid : (cons piece split).Valid)
    (position : Position) :
    (Scanner.mk (cons piece split).text position).next =
      (piece.lexeme.token (position.advance piece.gap),
        ⟨split.text, position.advance piece.characters⟩) := by
  obtain ⟨⟨gap, wellFormed, -⟩, -⟩ := valid_cons_iff.mp valid
  rw [text_cons]
  exact Scanner.next_piece gap wellFormed valid.ends position

/-- Scanning gives the tokens of the pieces, however the text is split. -/
theorem toList_scanner {split : Split} (valid : split.Valid) (position : Position) :
    TokenSource.toList (Scanner.mk split.text position) =
      tokensFrom position split.pieces split.last := by
  obtain ⟨pieces, last⟩ := split
  induction pieces generalizing position with
  | nil =>
      have scanned := next_of_nil valid.last position
      have ended : (TokenSource.next (Scanner.mk last position)).1.kind = .endOfInput :=
        congrArg (·.1.kind) scanned
      rw [text, List.flatMap_nil, List.nil_append, TokenSource.toList_of_ended ended]
      exact congrArg (fun step => [step.1]) scanned
  | cons piece later inductionHypothesis =>
      have whole : (cons piece ⟨later, last⟩).Valid := valid
      obtain ⟨⟨gap, wellFormed, -⟩, validLater⟩ := valid_cons_iff.mp whole
      change TokenSource.toList (Scanner.mk (cons piece ⟨later, last⟩).text position) = _
      rw [text_cons, Scanner.toList_piece gap wellFormed whole.ends, tokensFrom,
        inductionHypothesis _ validLater]

/-- A word that goes on as far as it can is kept apart from the word after it. -/
theorem valid_cons_word {gap characters : List Char} {split : Split} (isGap : IsGap gap)
    (isWord : IsWord characters) (valid : split.Valid)
    (stops : ∀ character ∈ split.text.head?, isWordCharacter character = false) :
    (cons ⟨gap, .word characters⟩ split).Valid := by
  apply valid_cons_iff.mpr
  refine ⟨⟨isGap, isWord, ?_⟩, valid⟩
  intro next membership _ word empty
  obtain ⟨pieces, last⟩ := split
  cases pieces with
  | nil => contradiction
  | cons piece later =>
      obtain rfl : piece = next := Option.some.inj membership
      obtain ⟨gap, lexeme⟩ := piece
      obtain rfl : gap = [] := empty
      cases lexeme with
      | mark symbol => contradiction
      | word characters =>
          obtain ⟨nonempty, inWord⟩ :=
            isWord_iff.mp (valid.lexemes ⟨[], .word characters⟩ List.mem_cons_self)
          obtain ⟨character, rest, rfl⟩ := List.exists_cons_of_ne_nil nonempty
          have stop := stops character rfl
          rw [inWord character List.mem_cons_self] at stop
          contradiction

/-- A mark needs nothing between it and what follows. -/
theorem valid_cons_mark {gap : List Char} {symbol : Mark} {split : Split} (isGap : IsGap gap)
    (valid : split.Valid) : (cons ⟨gap, .mark symbol⟩ split).Valid := by
  apply valid_cons_iff.mpr
  refine ⟨⟨isGap, trivial, ?_⟩, valid⟩
  exact fun _ _ impossible => absurd impossible Bool.false_ne_true

theorem stops_dropWhile (predicate : Char → Bool) (characters : List Char) :
    ∀ character ∈ (characters.dropWhile predicate).head?, predicate character = false := by
  intro character membership
  have head := List.head?_dropWhile_not predicate characters
  rwa [Option.mem_def.mp membership] at head

theorem exists_gap (characters : List Char) :
    ∃ gap rest, characters = gap ++ rest ∧ IsGap gap ∧
      ∀ character ∈ rest.head?, Text.isBlank character = false := by
  refine ⟨characters.takeWhile Text.isBlank, characters.dropWhile Text.isBlank,
    List.takeWhile_append_dropWhile.symm, ?_, stops_dropWhile Text.isBlank characters⟩
  exact fun _ membership => List.mem_takeWhile_imp membership

theorem exists_word {character : Char} (rest : List Char)
    (inWord : isWordCharacter character = true) :
    ∃ word later, character :: rest = word ++ later ∧ IsWord word ∧
      ∀ next ∈ later.head?, isWordCharacter next = false := by
  refine ⟨(character :: rest).takeWhile isWordCharacter,
    (character :: rest).dropWhile isWordCharacter, List.takeWhile_append_dropWhile.symm, ?_,
    stops_dropWhile isWordCharacter (character :: rest)⟩
  apply isWord_iff.mpr
  refine ⟨?_, fun _ membership => List.mem_takeWhile_imp membership⟩
  rw [List.takeWhile_cons_of_pos inWord]
  exact List.cons_ne_nil _ _

/-- Every text splits. -/
theorem exists_valid (characters : List Char) :
    ∃ split : Split, split.Valid ∧ split.text = characters := by
  obtain ⟨gap, rest, start, isGap, notBlank⟩ := exists_gap characters
  have total := congrArg List.length start
  rw [List.length_append] at total
  cases rest with
  | nil =>
      refine ⟨⟨[], gap⟩, ⟨List.forall_mem_nil _, List.forall_mem_nil _, .nil, isGap⟩, ?_⟩
      rw [start, List.append_nil]
      rfl
  | cons character later =>
      cases found : Mark.ofCharacter? character with
      | some symbol =>
          have shorter : later.length < characters.length := by
            rw [total, List.length_cons]
            omega
          obtain ⟨split, valid, text⟩ := exists_valid later
          refine ⟨cons ⟨gap, .mark symbol⟩ split, valid_cons_mark isGap valid, ?_⟩
          rw [text_cons, text, start, ← Mark.character_of_ofCharacter? found]
          exact List.append_assoc _ _ _
      | none =>
          have inWord : isWordCharacter character = true :=
            isWordCharacter_iff.mpr
              ⟨notBlank character rfl, Mark.ofCharacter?_eq_none_iff.mp found⟩
          obtain ⟨word, behind, same, isWord, stops⟩ := exists_word later inWord
          have shorter : behind.length < characters.length := by
            have used := List.length_pos_iff.mpr isWord.nonempty
            rw [total, same, List.length_append]
            omega
          obtain ⟨split, valid, text⟩ := exists_valid behind
          refine ⟨cons ⟨gap, .word word⟩ split, ?_, ?_⟩
          · exact valid_cons_word isGap isWord valid (text ▸ stops)
          · rw [text_cons, text, start, same]
            exact List.append_assoc _ _ _
termination_by characters.length

theorem piece_eq_of_characters_eq {first second : Piece} (firstGap : IsGap first.gap)
    (secondGap : IsGap second.gap) (firstWellFormed : first.lexeme.WellFormed)
    (secondWellFormed : second.lexeme.WellFormed)
    (same : first.characters = second.characters) : first = second := by
  have stops : ∀ {lexeme : Lexeme}, lexeme.WellFormed →
      ∀ character ∈ lexeme.characters.head?, Text.isBlank character = false :=
    fun wellFormed _ membership =>
      Lexeme.not_isBlank_of_mem wellFormed (List.mem_of_mem_head? membership)
  obtain ⟨taken, dropped⟩ := takeWhile_append_of_stops firstGap (stops firstWellFormed)
  obtain ⟨otherTaken, otherDropped⟩ := takeWhile_append_of_stops secondGap (stops secondWellFormed)
  obtain ⟨gap, lexeme⟩ := first
  obtain ⟨otherGap, otherLexeme⟩ := second
  unfold Piece.characters at same
  rw [same, otherTaken] at taken
  rw [same, otherDropped] at dropped
  rw [Piece.mk.injEq]
  exact ⟨taken.symm,
    Lexeme.eq_of_characters_eq firstWellFormed secondWellFormed dropped.symm⟩

theorem not_isGap_text_cons {piece : Piece} {split : Split} (valid : (cons piece split).Valid) :
    ¬IsGap (cons piece split).text := by
  obtain ⟨⟨-, wellFormed, -⟩, -⟩ := valid_cons_iff.mp valid
  obtain ⟨character, rest, first⟩ :=
    List.exists_cons_of_ne_nil (Lexeme.characters_ne_nil wellFormed)
  have inLexeme : character ∈ piece.lexeme.characters := by
    rw [first]
    exact List.mem_cons_self
  intro gap
  have blank := gap character (by simp [text_cons, Piece.characters, inLexeme])
  rw [Lexeme.not_isBlank_of_mem wellFormed inLexeme] at blank
  contradiction

/-- A text splits in one way only: what is scanned first fixes the first piece. -/
theorem eq_of_text_eq {first second : Split} (firstValid : first.Valid)
    (secondValid : second.Valid) (same : first.text = second.text) : first = second := by
  obtain ⟨pieces, last⟩ := first
  induction pieces generalizing second with
  | nil =>
      obtain ⟨others, otherLast⟩ := second
      cases others with
      | nil =>
          rw [Split.mk.injEq]
          exact ⟨rfl, same⟩
      | cons other othersLater =>
          have whole : (cons other ⟨othersLater, otherLast⟩).Valid := secondValid
          have blank : IsGap (cons other ⟨othersLater, otherLast⟩).text := same ▸ firstValid.last
          exact absurd blank (not_isGap_text_cons whole)
  | cons piece later inductionHypothesis =>
      have whole : (cons piece ⟨later, last⟩).Valid := firstValid
      obtain ⟨others, otherLast⟩ := second
      cases others with
      | nil =>
          have blank : IsGap (cons piece ⟨later, last⟩).text := same ▸ secondValid.last
          exact absurd blank (not_isGap_text_cons whole)
      | cons other othersLater =>
          have otherWhole : (cons other ⟨othersLater, otherLast⟩).Valid := secondValid
          have texts : (cons piece ⟨later, last⟩).text =
            (cons other ⟨othersLater, otherLast⟩).text := same
          have scanned := next_of_cons whole .origin
          rw [texts, next_of_cons otherWhole .origin] at scanned
          have rests : (Split.mk later last).text = (Split.mk othersLater otherLast).text :=
            congrArg (·.2.rest) scanned.symm
          obtain ⟨⟨gap, wellFormed, -⟩, laterValid⟩ := valid_cons_iff.mp whole
          obtain ⟨⟨otherGap, otherWellFormed, -⟩, othersValid⟩ := valid_cons_iff.mp otherWhole
          rw [text_cons, text_cons, rests] at texts
          have pieces := piece_eq_of_characters_eq gap otherGap wellFormed otherWellFormed
            (List.append_cancel_right texts)
          have splits := inductionHypothesis othersValid laterValid rests
          rw [Split.mk.injEq] at splits
          rw [pieces, splits.1, splits.2]

end Split

/-!
## Places of tokens
-/

/-- As long as the counts fit their words, advancing over characters leads behind them. -/
theorem Position.isAfter_advance {characters : List Char} (short : characters.length < 4294967296) :
    (Position.origin.advance characters).IsAfter characters := by
  induction characters using List.reverseRecOn with
  | nil => exact ⟨rfl, rfl⟩
  | append_singleton before character inductionHypothesis =>
      rw [List.length_append, List.length_singleton] at short
      obtain ⟨line, column⟩ := inductionHypothesis (Nat.lt_of_succ_lt short)
      rw [advance_append, advance_cons, advance_nil, after]
      have lines : before.count '\n' ≤ before.length := List.count_le_length
      have columns : (before.rtakeWhile (· ≠ '\n')).length ≤ before.length :=
        (List.rtakeWhile_suffix _ _).length_le
      by_cases lineBreak : character = '\n'
      · rw [if_pos lineBreak]
        constructor
        · rw [List.count_append, lineBreak, List.count_singleton_self, UInt32.toNat_add, line,
            UInt32.toNat_one]
          exact Nat.mod_eq_of_lt (by omega)
        · rw [List.rtakeWhile_concat_neg _ _ _ (by simpa using lineBreak)]
          rfl
      · rw [if_neg lineBreak]
        constructor
        · rw [List.count_append, line, List.count_singleton, if_neg (by simpa using lineBreak),
            Nat.add_zero]
        · rw [List.rtakeWhile_concat_pos _ _ _ (by simpa using lineBreak), List.length_append,
            List.length_singleton, UInt32.toNat_add, column, UInt32.toNat_one]
          exact Nat.mod_eq_of_lt (by omega)

theorem yields_tokensFrom {before last : List Char} {pieces : List Piece}
    (short : (before ++ (Split.mk pieces last).text).length < 4294967296) :
    Yields before pieces last (tokensFrom (Position.origin.advance before) pieces last) := by
  induction pieces generalizing before with
  | nil =>
      rw [tokensFrom, ← Position.advance_append]
      exact .finished (Position.isAfter_advance short)
  | cons piece later inductionHypothesis =>
      change (before ++ (Split.cons piece ⟨later, last⟩).text).length < _ at short
      rw [Split.text_cons, ← List.append_assoc] at short
      have upToGap : (before ++ piece.gap).length < 4294967296 := by
        simp only [Piece.characters, List.length_append] at short ⊢
        omega
      rw [tokensFrom, ← Position.advance_append, ← Position.advance_append]
      obtain ⟨kind, text, token, denotes⟩ :=
        piece.lexeme.denotes_token (Position.origin.advance (before ++ piece.gap))
      rw [token]
      exact .piece denotes (Position.isAfter_advance upToGap) (inductionHypothesis short)

/-- A short enough text splits in exactly one way, and its tokens are those of the pieces, each
with the kind, the text and the place of its lexeme. -/
theorem tokenize_yields_of_unique_split (source : String) (short : source.toList.length < 4294967296) :
    ∃ split : Split, (split.Valid ∧ split.text = source.toList) ∧
      Yields [] split.pieces split.last (tokenize source) ∧
      ∀ other : Split, other.Valid → other.text = source.toList → other = split := by
  obtain ⟨split, valid, text⟩ := Split.exists_valid source.toList
  refine ⟨split, ⟨valid, text⟩, ?_, ?_⟩
  · have tokens := Split.toList_scanner valid .origin
    rw [text] at tokens
    have yields : Yields [] split.pieces split.last (tokensFrom (Position.origin.advance []) _ _) :=
      yields_tokensFrom (by rwa [List.nil_append, text])
    rw [tokenize, Scanner.ofString, tokens]
    exact yields
  · intro other otherValid otherText
    exact Split.eq_of_text_eq otherValid valid (otherText.trans text.symm)

/-- A mark right behind a word, a line break before the next word, and blanks at the end. -/
def gluedSample : Split :=
  ⟨[⟨[], .word ['A', 'N', 'D']⟩, ⟨[], .mark .leftBrace⟩, ⟨['\n', ' '], .word ['a']⟩], ['\t']⟩

theorem valid_gluedSample : gluedSample.Valid := by
  have words : IsWord ['A', 'N', 'D'] ∧ IsWord ['a'] :=
    ⟨isWord_iff.mpr ⟨by decide, List.all_eq_true.mp rfl⟩,
      isWord_iff.mpr ⟨by decide, List.all_eq_true.mp rfl⟩⟩
  refine ⟨?_, ?_, ?_, ?_⟩
  · simp only [gluedSample, List.forall_mem_cons]
    exact ⟨List.forall_mem_nil _, List.forall_mem_nil _, List.all_eq_true.mp rfl,
      List.forall_mem_nil _⟩
  · simp only [gluedSample, List.forall_mem_cons]
    exact ⟨words.1, trivial, words.2, List.forall_mem_nil _⟩
  · simp [gluedSample, Lexeme.isWord]
  · exact List.forall_mem_singleton.mpr (by decide)

theorem tokenize_gluedSample :
    "AND\x7b\n a\t".toList.length < 4294967296 ∧
      Yields [] gluedSample.pieces gluedSample.last (tokenize "AND\x7b\n a\t") := by
  refine ⟨by decide, ?_⟩
  obtain ⟨split, -, yields, unique⟩ :=
    tokenize_yields_of_unique_split "AND\x7b\n a\t" (by decide)
  rw [unique gluedSample valid_gluedSample (by decide)]
  exact yields

end Cohort
