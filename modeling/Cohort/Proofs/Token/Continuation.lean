import Cohort.Proofs.Token.Split

/-!
# Scanning behind a mark

A mark ends what comes before it, so the tokens of a text up to a mark are the same whatever comes
behind, and scanning goes on there from the place that is reached.
-/

namespace Cohort

theorem IsWord.noBreak {characters : List Char} (isWord : IsWord characters) :
    '\n' ∉ characters :=
  fun membership => absurd (isWord.noBlank '\n' membership) (by decide)

/-- Only the number of characters counts if no line ends among them. -/
theorem Position.advance_eq_of_length_eq {first second : List Char}
    (same : first.length = second.length) (noBreak : '\n' ∉ first) (otherNoBreak : '\n' ∉ second)
    (position : Position) : position.advance first = position.advance second := by
  induction first generalizing second position with
  | nil => rw [List.eq_nil_of_length_eq_zero same.symm]
  | cons character first inductionHypothesis =>
      obtain ⟨other, second, rfl⟩ := List.exists_cons_of_length_eq_add_one same.symm
      rw [List.mem_cons, not_or] at noBreak otherNoBreak
      rw [advance_cons, advance_cons, after, after, if_neg (Ne.symm noBreak.1),
        if_neg (Ne.symm otherNoBreak.1)]
      exact inductionHypothesis (Nat.succ.inj same) noBreak.2 otherNoBreak.2 _

theorem Mark.count_character (mark counted : Mark) :
    [mark.character].count counted.character = if mark = counted then 1 else 0 := by
  by_cases same : mark = counted
  · rw [same, List.count_singleton_self, if_pos rfl]
  · have different : counted.character ∉ [mark.character] := by
      intro membership
      have found := Mark.ofCharacter?_character mark
      rw [← List.mem_singleton.mp membership, Mark.ofCharacter?_character] at found
      exact same (Option.some.inj found).symm
    rw [List.count_eq_zero.mpr different, if_neg same]

/-- A mark is in the characters of a piece as often as in its token. -/
theorem Piece.count_character {piece : Piece} (gap : IsGap piece.gap)
    (wellFormed : piece.lexeme.WellFormed) (counted : Mark) (position : Position) :
    piece.characters.count counted.character =
      if (piece.lexeme.token position).kind = .mark counted then 1 else 0 := by
  have notInGap : counted.character ∉ piece.gap := by
    intro membership
    have blank := gap _ membership
    rw [counted.isBlank_character] at blank
    contradiction
  rw [characters, List.count_append, List.count_eq_zero.mpr notInGap, Nat.zero_add]
  cases same : piece.lexeme with
  | mark symbol => simpa [Lexeme.characters, Lexeme.token] using symbol.count_character counted
  | word characters =>
      rw [same] at wellFormed
      have notInWord : counted.character ∉ characters := wellFormed.noMark counted
      obtain ⟨kind, text, made, denotes⟩ := (Lexeme.word characters).denotes_token position
      have otherKind : kind ≠ .mark counted := by
        cases denotes <;> simp
      rw [made, if_neg otherKind]
      exact List.count_eq_zero.mpr notInWord

namespace Scanner

/-- A word is not continued by a mark, however the text before the mark begins. -/
theorem ends_before_mark {characters : List Char}
    (ends : ∀ character ∈ characters.head?, isWordCharacter character = false) (symbol : Mark)
    (rest : List Char) :
    ∀ character ∈ (characters ++ symbol.character :: rest).head?,
      isWordCharacter character = false := by
  cases characters with
  | nil =>
      intro character membership
      obtain rfl : symbol.character = character := Option.some.inj membership
      exact symbol.not_isWordCharacter
  | cons first later => exact ends

/-- What comes before a mark makes the same tokens whatever comes behind it, and every mark in it
is one of them. -/
theorem exists_tokens_before_mark (characters : List Char) (symbol : Mark) (position : Position) :
    ∃ tokens : List Token, (∀ token ∈ tokens, token.kind ≠ .endOfInput) ∧
      (∀ counted : Mark, tokens.countP (·.kind = .mark counted) =
        (characters ++ [symbol.character]).count counted.character) ∧
      ∀ rest, TokenSource.toList (Scanner.mk (characters ++ symbol.character :: rest) position) =
        tokens ++ TokenSource.toList
          (Scanner.mk rest (position.advance (characters ++ [symbol.character]))) := by
  obtain ⟨⟨pieces, last⟩, valid, rfl⟩ := Split.exists_valid characters
  induction pieces generalizing position with
  | nil =>
      let piece : Piece := ⟨last, .mark symbol⟩
      refine ⟨[piece.lexeme.token (position.advance last)], ?_, fun counted => ?_,
        fun rest => ?_⟩
      · exact List.forall_mem_singleton.mpr (piece.lexeme.kind_token_ne_endOfInput _)
      · have count := @Piece.count_character piece valid.last trivial counted
          (position.advance last)
        rw [List.countP_singleton]
        simpa [piece, Piece.characters, Lexeme.characters, Split.text] using count.symm
      · have scanned := @toList_piece piece rest valid.last trivial
          (fun word => absurd word Bool.false_ne_true) position
        simpa [piece, Piece.characters, Lexeme.characters, Split.text] using scanned
  | cons piece later inductionHypothesis =>
      have whole : (Split.cons piece ⟨later, last⟩).Valid := valid
      obtain ⟨⟨gap, wellFormed, -⟩, validLater⟩ := Split.valid_cons_iff.mp whole
      obtain ⟨tokens, unfinished, counts, scannedLater⟩ :=
        inductionHypothesis (position.advance piece.characters) validLater
      refine ⟨piece.lexeme.token (position.advance piece.gap) :: tokens, ?_, fun counted => ?_,
        fun rest => ?_⟩
      · exact List.forall_mem_cons.mpr ⟨piece.lexeme.kind_token_ne_endOfInput _, unfinished⟩
      · change _ = ((Split.cons piece ⟨later, last⟩).text ++ [symbol.character]).count _
        rw [Split.text_cons, List.append_assoc, List.count_append, ← counts counted,
          Piece.count_character gap wellFormed counted (position.advance piece.gap),
          List.countP_cons, Nat.add_comm]
        simp
      · change TokenSource.toList
          (Scanner.mk ((Split.cons piece ⟨later, last⟩).text ++ symbol.character :: rest) _) = _ ++
            TokenSource.toList (Scanner.mk rest (Position.advance _
              ((Split.cons piece ⟨later, last⟩).text ++ [symbol.character])))
        rw [Split.text_cons, List.append_assoc, List.append_assoc, Position.advance_append,
          toList_piece gap wellFormed fun word => ends_before_mark (whole.ends word) symbol rest,
          scannedLater, List.cons_append]

theorem toList_word {characters rest : List Char} (isWord : IsWord characters)
    (ends : ∀ character ∈ rest.head?, isWordCharacter character = false) (position : Position) :
    TokenSource.toList (Scanner.mk (characters ++ rest) position) =
      Token.ofWord characters position ::
        TokenSource.toList (Scanner.mk rest (position.advance characters)) :=
  @toList_piece ⟨[], .word characters⟩ rest (List.forall_mem_nil _) isWord (fun _ => ends) position

end Scanner

end Cohort
