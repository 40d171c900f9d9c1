import Cohort.Token.Basic

/-!
Sources of tokens.

A source hands out one token at a time.  Every token before the first end of input uses up some
of the source, so reading to the end always stops.  A `TokenQueue` is a source made of a list.
-/

namespace Cohort

/-- Something that hands out tokens one at a time. -/
class TokenSource (σ : Type) where
  /-- The next token and what is left of the source. -/
  next : σ → Token × σ
  /-- A bound on the number of tokens left before the end of input. -/
  remaining : σ → Nat
  remaining_next (source : σ) :
    (next source).1.kind ≠ .endOfInput → remaining (next source).2 < remaining source

namespace TokenSource

variable {σ : Type} [TokenSource σ]

def take (source : σ) : (count : Nat) → List Token
  | 0 => []
  | count + 1 => (next source).1 :: take (next source).2 count

/-- Add the tokens of a source, up to and with the first end of input, to those collected. -/
def collect (collected : Array Token) (source : σ) : Array Token :=
  let step := next source
  if _ended : step.1.kind = .endOfInput then
    collected.push step.1
  else
    collect (collected.push step.1) step.2
termination_by remaining source
decreasing_by exact remaining_next source _ended

/-- The tokens of a source, up to and with the first end of input. -/
def toList (source : σ) : List Token :=
  (collect #[] source).toList

/-- What holds at the end of input, and before a token whenever it holds after it, holds of every
source. -/
theorem induction {motive : σ → Prop}
    (ended : ∀ source, (next source).1.kind = .endOfInput → motive source)
    (token : ∀ source, (next source).1.kind ≠ .endOfInput → motive (next source).2 →
      motive source)
    (source : σ) : motive source :=
  if h : (next source).1.kind = .endOfInput then
    ended source h
  else
    token source h (induction ended token (next source).2)
termination_by remaining source
decreasing_by exact remaining_next source h

theorem collect_of_ended {source : σ} (collected : Array Token)
    (ended : (next source).1.kind = .endOfInput) :
    collect collected source = collected.push (next source).1 := by
  rw [collect]
  exact dif_pos ended

theorem collect_of_token {source : σ} (collected : Array Token)
    (unfinished : (next source).1.kind ≠ .endOfInput) :
    collect collected source = collect (collected.push (next source).1) (next source).2 := by
  rw [collect]
  exact dif_neg unfinished

theorem toList_collect (source : σ) (collected : Array Token) :
    (collect collected source).toList = collected.toList ++ toList source := by
  unfold toList
  induction source using induction generalizing collected with
  | ended source ended => simp [collect_of_ended _ ended]
  | token source unfinished inductionHypothesis =>
      rw [collect_of_token _ unfinished, collect_of_token _ unfinished, inductionHypothesis,
        inductionHypothesis (#[].push _)]
      simp

theorem toList_of_ended {source : σ} (ended : (next source).1.kind = .endOfInput) :
    toList source = [(next source).1] := by
  simp [toList, collect_of_ended _ ended]

theorem toList_of_token {source : σ} (unfinished : (next source).1.kind ≠ .endOfInput) :
    toList source = (next source).1 :: toList (next source).2 := by
  rw [toList, collect_of_token _ unfinished, toList_collect]
  simp

end TokenSource

structure TokenQueue where
  pending : List Token
  /-- Where the token handed out last begins. -/
  last : Position

namespace TokenQueue

def ofList (tokens : List Token) : TokenQueue :=
  ⟨tokens, .origin⟩

/-- Hand out the next token.  Nothing after an end of input counts, and a list that has run out
goes on with an end of input at the place of its last token. -/
def next : TokenQueue → Token × TokenQueue
  | ⟨[], last⟩ => (⟨.endOfInput, none, last⟩, ⟨[], last⟩)
  | ⟨token :: pending, _⟩ =>
      (token, ⟨if token.kind = .endOfInput then [] else pending, token.position⟩)

theorem length_pending_next (queue : TokenQueue)
    (unfinished : queue.next.1.kind ≠ .endOfInput) :
    queue.next.2.pending.length < queue.pending.length := by
  rcases queue with ⟨_ | ⟨token, pending⟩, last⟩
  · exact absurd rfl unfinished
  · have kept : token.kind ≠ .endOfInput := unfinished
    simp [next, kept]

instance : TokenSource TokenQueue where
  next := next
  remaining queue := queue.pending.length
  remaining_next := length_pending_next

end TokenQueue

end Cohort
