import Cohort.Script.Parsing

/-!
# Interchangeable sources of tokens

Two sources are interchangeable if they hand out the same tokens, however many are asked for.
Reading cannot tell them apart.  A text that is scanned as it is read and the list of its tokens are
interchangeable, since both go on with ends of input at the place of the first one.
-/

namespace Cohort

namespace Token

/-- An end of input that no token of a list stands for. -/
def ended (position : Position) : Token :=
  ⟨.endOfInput, none, position⟩

theorem kind_ofWord_ne_endOfInput (word : List Char) (position : Position) :
    (ofWord word position).kind ≠ .endOfInput := by
  unfold ofWord
  dsimp only
  split
  · exact nofun
  · split
    · exact nofun
    · exact nofun

end Token

namespace TokenSource

variable {σ τ : Type} [TokenSource σ] [TokenSource τ]

def Interchangeable (first : σ) (second : τ) : Prop :=
  ∀ count, take first count = take second count

/-- Once a source has handed out an end of input, it goes on with ends of input at its place. -/
def HonoursEnd (σ : Type) [TokenSource σ] : Prop :=
  ∀ source : σ, (next source).1.kind = .endOfInput →
    ∀ count, take (next source).2 count =
      List.replicate count (.ended (next source).1.position)

theorem Interchangeable.next {first : σ} {second : τ} (same : Interchangeable first second) :
    (next first).1 = (next second).1 ∧ Interchangeable (next first).2 (next second).2 := by
  have parts : ∀ count, (TokenSource.next first).1 = (TokenSource.next second).1 ∧
      take (TokenSource.next first).2 count = take (TokenSource.next second).2 count := by
    intro count
    have more := same (count + 1)
    rw [take, take] at more
    exact List.cons.inj more
  exact ⟨(parts 0).1, fun count => (parts count).2⟩

end TokenSource

namespace TokenQueue

open TokenSource

theorem take_nil (last : Position) (count : Nat) :
    take (TokenQueue.mk [] last) count = List.replicate count (.ended last) := by
  induction count with
  | zero => rfl
  | succ count inductionHypothesis =>
      rw [List.replicate_succ, ← inductionHypothesis]
      rfl

theorem take_cons_of_ended {token : Token} (isEnd : token.kind = .endOfInput)
    (rest : List Token) (last : Position) (count : Nat) :
    take (TokenQueue.mk (token :: rest) last) (count + 1) =
      token :: List.replicate count (.ended token.position) := by
  rw [← take_nil]
  change token ::
    take (mk (if token.kind = .endOfInput then [] else rest) token.position) count = _
  rw [if_pos isEnd]

theorem take_cons_of_token {token : Token} (unfinished : token.kind ≠ .endOfInput)
    (rest : List Token) (last : Position) (count : Nat) :
    take (TokenQueue.mk (token :: rest) last) (count + 1) =
      token :: take (TokenQueue.mk rest token.position) count := by
  change token ::
    take (mk (if token.kind = .endOfInput then [] else rest) token.position) count = _
  rw [if_neg unfinished]

/-- The place of the last of some tokens, or a place before them if there are none. -/
def lastPosition (tokens : List Token) (before : Position) : Position :=
  (tokens.map Token.position).getLastD before

theorem take_append {before : List Token} (unfinished : ∀ token ∈ before, token.kind ≠ .endOfInput)
    (rest : List Token) (last : Position) (count : Nat) :
    take (TokenQueue.mk (before ++ rest) last) count =
      before.take count ++
        take (TokenQueue.mk rest (lastPosition before last)) (count - before.length) := by
  induction before generalizing last count with
  | nil => simp [lastPosition]
  | cons token before inductionHypothesis =>
      rw [List.forall_mem_cons] at unfinished
      cases count with
      | zero => simp [take]
      | succ count =>
          rw [List.cons_append, take_cons_of_token unfinished.1, inductionHypothesis unfinished.2,
            List.take_succ_cons, List.length_cons, Nat.add_sub_add_right, lastPosition,
            lastPosition, List.map_cons, List.getLastD_cons, List.cons_append]

theorem honoursEnd : HonoursEnd TokenQueue := by
  rintro ⟨_ | ⟨token, pending⟩, last⟩ isEnd count
  · exact take_nil last count
  · have whole := take_cons_of_ended isEnd pending last count
    rw [take] at whole
    exact (List.cons.inj whole).2

/-- A list hands out its tokens up to the first end of input, and that end again and again. -/
theorem take_of_ended {before : List Token}
    (unfinished : ∀ token ∈ before, token.kind ≠ .endOfInput) {last : Token}
    (isEnd : last.kind = .endOfInput) (rest : List Token) (count : Nat) :
    take (ofList (before ++ last :: rest)) count =
      (before ++ last :: List.replicate count (.ended last.position)).take count := by
  rw [ofList, take_append unfinished, List.take_append]
  congr 1
  cases behind : count - before.length with
  | zero => rfl
  | succ more =>
      have fewer : more ≤ count := by omega
      rw [take_cons_of_ended isEnd, List.take_succ_cons, List.take_replicate,
        Nat.min_eq_left fewer]

theorem take_of_unfinished {tokens : List Token}
    (unfinished : ∀ token ∈ tokens, token.kind ≠ .endOfInput) (count : Nat) :
    take (ofList tokens) count =
      (tokens ++ List.replicate count (Token.ended (lastPosition tokens .origin))).take count := by
  have handedOut := take_append unfinished [] .origin count
  rw [List.append_nil, take_nil] at handedOut
  rw [ofList, handedOut, List.take_append, List.take_replicate, Nat.min_eq_left (Nat.sub_le _ _)]

end TokenQueue

namespace Scanner

open TokenSource

theorem skipWhile_of_rest_eq_nil {scanner : Scanner} (finished : scanner.rest = [])
    (predicate : Char → Bool) : scanner.skipWhile predicate = scanner := by
  obtain ⟨rest, position⟩ := scanner
  obtain rfl : rest = [] := finished
  rfl

theorem take_of_rest_eq_nil {scanner : Scanner} (finished : scanner.rest = []) (count : Nat) :
    take scanner count = List.replicate count (.ended scanner.position) := by
  have same := skipWhile_of_rest_eq_nil finished Text.isBlank
  have following : TokenSource.next scanner = (.ended scanner.position, scanner) := by
    have ended := next_of_nil (same ▸ finished)
    rwa [same] at ended
  induction count with
  | zero => rfl
  | succ count inductionHypothesis =>
      rw [take, following, inductionHypothesis, List.replicate_succ]

theorem rest_of_ended {scanner : Scanner} (isEnd : scanner.next.1.kind = .endOfInput) :
    (scanner.skipWhile Text.isBlank).rest = [] := by
  cases start : (scanner.skipWhile Text.isBlank).rest with
  | nil => rfl
  | cons character rest =>
      cases found : Mark.ofCharacter? character with
      | some mark =>
          rw [next_of_mark start found] at isEnd
          contradiction
      | none =>
          rw [next_of_word start found] at isEnd
          exact absurd isEnd (Token.kind_ofWord_ne_endOfInput _ _)

theorem honoursEnd : HonoursEnd Scanner := by
  intro scanner isEnd count
  have finished := rest_of_ended isEnd
  change take scanner.next.2 count = List.replicate count (.ended scanner.next.1.position)
  rw [next_of_nil finished]
  exact take_of_rest_eq_nil finished count

end Scanner

namespace TokenSource

variable {σ τ : Type} [TokenSource σ] [TokenSource τ]

/-- A source that honours its end is interchangeable with the list of its tokens. -/
theorem interchangeable_toList (honours : HonoursEnd σ) (source : σ) :
    Interchangeable source (TokenQueue.ofList (toList source)) := by
  intro count
  suffices general : ∀ last, take source count = take (TokenQueue.mk (toList source) last) count
    from general .origin
  intro last
  induction source using TokenSource.induction generalizing count last with
  | ended source isEnd =>
      rw [toList_of_ended isEnd]
      cases count with
      | zero => rfl
      | succ count =>
          rw [take, honours source isEnd count, TokenQueue.take_cons_of_ended isEnd]
  | token source unfinished inductionHypothesis =>
      rw [toList_of_token unfinished]
      cases count with
      | zero => rfl
      | succ count =>
          rw [take, inductionHypothesis, TokenQueue.take_cons_of_token unfinished]

end TokenSource

/-- Reading gives the same for sources that hand out the same tokens. -/
theorem Progress.run_eq_of_interchangeable {σ τ : Type} [TokenSource σ] [TokenSource τ]
    {first : σ} {second : τ} (same : TokenSource.Interchangeable first second) (limit : Nat)
    (progress : Progress) : progress.run limit first = progress.run limit second := by
  induction first using TokenSource.induction generalizing progress second with
  | ended first isEnd =>
      have isEndToo := same.next.1 ▸ isEnd
      rw [run_of_ended isEnd, run_of_ended isEndToo, same.next.1]
  | token first unfinished inductionHypothesis =>
      have unfinishedToo := same.next.1 ▸ unfinished
      rw [run_of_token unfinished, run_of_token unfinishedToo, same.next.1]
      cases progress.step limit (TokenSource.next second).1 with
      | error rejection => rfl
      | ok next => exact inductionHypothesis same.next.2 next

namespace TokenQueue

open TokenSource

/-- What follows the first end of input in a list is never handed out. -/
theorem interchangeable_of_ended {before : List Token}
    (unfinished : ∀ token ∈ before, token.kind ≠ .endOfInput) {last : Token}
    (isEnd : last.kind = .endOfInput) (rest other : List Token) :
    Interchangeable (ofList (before ++ last :: rest)) (ofList (before ++ last :: other)) := by
  intro count
  rw [take_of_ended unfinished isEnd, take_of_ended unfinished isEnd]

/-- A list without an end of input goes on as if one stood at the place of its last token. -/
theorem interchangeable_of_unfinished {tokens : List Token}
    (unfinished : ∀ token ∈ tokens, token.kind ≠ .endOfInput) :
    Interchangeable (ofList tokens)
      (ofList (tokens ++ [.ended (lastPosition tokens .origin)])) := by
  intro count
  have fewer : count - tokens.length ≤ count := Nat.sub_le _ _
  rw [take_of_unfinished unfinished, take_of_ended unfinished rfl, List.take_append,
    List.take_append]
  change _ = _ ++ (List.replicate (count + 1) _).take _
  rw [List.take_replicate, List.take_replicate, Nat.min_eq_left fewer,
    Nat.min_eq_left (Nat.le_succ_of_le fewer)]

end TokenQueue

namespace Script

open TokenSource TokenQueue

/-- Scanning a text as it is read and listing its tokens first give the same tokens and the same
script or rejection.  Both go on with ends of input at the place of the first one; what follows that
one in a list does not matter, and a list without one is read as if it stood behind its last
token. -/
theorem parse_tokenize_and_ended :
    (HonoursEnd Scanner ∧ HonoursEnd TokenQueue) ∧
    (∀ source : String,
      (∀ count, take (Scanner.ofString source) count = take (ofList (tokenize source)) count) ∧
      ∀ limit, parse (ofList (tokenize source)) limit = ofSource source limit) ∧
    ∀ before : List Token, (∀ token ∈ before, token.kind ≠ .endOfInput) →
      (∀ last rest, last.kind = .endOfInput →
        (∀ count, take (ofList (before ++ last :: rest)) count =
          (before ++ last :: List.replicate count (.ended last.position)).take count) ∧
        ∀ other limit, parse (ofList (before ++ last :: rest)) limit =
          parse (ofList (before ++ last :: other)) limit) ∧
      (∀ count, take (ofList before) count =
        (before ++ List.replicate count (Token.ended (lastPosition before .origin))).take count) ∧
      ∀ limit, parse (ofList before) limit =
        parse (ofList (before ++ [.ended (lastPosition before .origin)])) limit := by
  refine ⟨⟨Scanner.honoursEnd, TokenQueue.honoursEnd⟩, ?scanned, ?listed⟩
  case scanned =>
    intro source
    have same := interchangeable_toList Scanner.honoursEnd (Scanner.ofString source)
    exact ⟨same, fun limit => (Progress.run_eq_of_interchangeable same limit .start).symm⟩
  case listed =>
    intro before unfinished
    refine ⟨?_, take_of_unfinished unfinished, ?_⟩
    · intro last rest isEnd
      refine ⟨take_of_ended unfinished isEnd rest, fun other limit => ?_⟩
      exact Progress.run_eq_of_interchangeable
        (interchangeable_of_ended unfinished isEnd rest other) limit .start
    · intro limit
      exact Progress.run_eq_of_interchangeable (interchangeable_of_unfinished unfinished) limit
        .start

/-- Tokens that break off behind the name of a script. -/
def brokenOffTokens : List Token :=
  [⟨.keyword .name, none, ⟨0, 0⟩⟩, ⟨.identifier, some "g", ⟨3, 7⟩⟩]

/-- An end of input that carries a text. -/
def spokenEnd : Token :=
  ⟨.endOfInput, some "stop", ⟨5, 1⟩⟩

theorem parse_brokenOffTokens :
    (∀ token ∈ brokenOffTokens, token.kind ≠ .endOfInput) ∧ spokenEnd.kind = .endOfInput ∧
      take (ofList (brokenOffTokens ++ spokenEnd :: brokenOffTokens)) 4 =
        brokenOffTokens ++ [spokenEnd, .ended ⟨5, 1⟩] ∧
      parse (ofList (brokenOffTokens ++ spokenEnd :: brokenOffTokens)) 1 =
        parse (ofList (brokenOffTokens ++ [spokenEnd])) 1 ∧
      take (ofList brokenOffTokens) 4 = brokenOffTokens ++ [.ended ⟨3, 7⟩, .ended ⟨3, 7⟩] ∧
      parse (ofList brokenOffTokens) 1 = parse (ofList (brokenOffTokens ++ [.ended ⟨3, 7⟩])) 1 := by
  have unfinished : ∀ token ∈ brokenOffTokens, token.kind ≠ .endOfInput := by decide
  obtain ⟨withEnd, withoutEnd⟩ := parse_tokenize_and_ended.2.2 brokenOffTokens unfinished
  obtain ⟨handedOut, onlyBefore⟩ := withEnd spokenEnd brokenOffTokens rfl
  exact ⟨unfinished, rfl, handedOut 4, onlyBefore [] 1, withoutEnd.1 4, withoutEnd.2 1⟩

end Script

end Cohort
