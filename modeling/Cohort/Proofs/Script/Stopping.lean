import Cohort.Proofs.Script.Transition

/-!
# Where reading stops

A run that fails has taken some tokens and stops at the next one, which it refuses.  Which tokens
it takes, and why it refuses the next, does not depend on what follows.
-/

namespace Cohort

namespace Progress

variable {σ : Type} [TokenSource σ]

/-- The tokens that a run takes before it ends. -/
def consumed (limit : Nat) (progress : Progress) (source : σ) : List Token :=
  let next := TokenSource.next source
  if _ended : next.1.kind = .endOfInput then
    []
  else
    match progress.step limit next.1 with
    | .error _ => []
    | .ok progress => next.1 :: consumed limit progress next.2
termination_by TokenSource.remaining source
decreasing_by exact TokenSource.remaining_next source _ended

theorem consumed_of_ended {limit : Nat} {progress : Progress} {source : σ}
    (ended : (TokenSource.next source).1.kind = .endOfInput) :
    progress.consumed limit source = [] := by
  rw [consumed]
  exact dif_pos ended

theorem consumed_of_error {limit : Nat} {progress : Progress} {source : σ} {rejection : Rejection}
    (unfinished : (TokenSource.next source).1.kind ≠ .endOfInput)
    (rejected : progress.step limit (TokenSource.next source).1 = .error rejection) :
    progress.consumed limit source = [] := by
  rw [consumed]
  simp only [unfinished, dite_false, rejected]

theorem consumed_of_ok {limit : Nat} {progress next : Progress} {source : σ}
    (unfinished : (TokenSource.next source).1.kind ≠ .endOfInput)
    (stepped : progress.step limit (TokenSource.next source).1 = .ok next) :
    progress.consumed limit source =
      (TokenSource.next source).1 :: next.consumed limit (TokenSource.next source).2 := by
  rw [consumed]
  simp only [unfinished, dite_false, stepped]

/-- Why a token cannot be taken.  Only the end of the input asks whether the script is complete. -/
inductive Refuses (limit : Nat) (progress : Progress) (token : Token) (rejection : Rejection) :
    Prop where
  | ended : token.kind = .endOfInput → progress.finish token = .error rejection →
      Refuses limit progress token rejection
  | stepped : token.kind ≠ .endOfInput → progress.step limit token = .error rejection →
      Refuses limit progress token rejection

/-- A run fails at the first token that it cannot take, with what is wrong with that token. -/
theorem run_eq_error_and_consumed_iff {limit : Nat} {progress : Progress} {source : σ}
    {before : List Token} {rejection : Rejection} :
    progress.run limit source = .error rejection ∧ progress.consumed limit source = before ↔
      ∃ stop token rest, TokenSource.toList source = before ++ token :: rest ∧
        Leads limit progress before stop ∧ Refuses limit stop token rejection := by
  induction source using TokenSource.induction generalizing progress before with
  | ended source ended =>
      rw [run_of_ended ended, consumed_of_ended ended, TokenSource.toList_of_ended ended]
      constructor
      · rintro ⟨rejected, rfl⟩
        exact ⟨progress, _, [], rfl, .nil, .ended ended rejected⟩
      · rintro ⟨stop, token, rest, split, leads, refuses⟩
        cases leads with
        | cons transition continues => simp at split
        | nil =>
            obtain ⟨rfl, -⟩ := List.cons.inj split
            cases refuses with
            | ended _ rejected => exact ⟨rejected, rfl⟩
            | stepped unfinished => contradiction
  | token source unfinished inductionHypothesis =>
      rw [run_of_token unfinished, TokenSource.toList_of_token unfinished]
      constructor
      · rintro ⟨rejected, taken⟩
        cases stepped : progress.step limit (TokenSource.next source).1 with
        | error other =>
            rw [stepped] at rejected
            rw [consumed_of_error unfinished stepped] at taken
            rw [← taken, ← Except.error.inj rejected]
            exact ⟨progress, _, _, rfl, .nil, .stepped unfinished stepped⟩
        | ok next =>
            rw [stepped] at rejected
            rw [consumed_of_ok unfinished stepped] at taken
            obtain ⟨stop, token, rest, split, leads, refuses⟩ :=
              inductionHypothesis.mp ⟨rejected, rfl⟩
            rw [← taken, split]
            exact ⟨stop, token, rest, rfl, .cons (transition_of_step stepped) leads, refuses⟩
      · rintro ⟨stop, token, rest, split, leads, refuses⟩
        cases leads with
        | nil =>
            obtain ⟨rfl, -⟩ := List.cons.inj split
            cases refuses with
            | ended ended => contradiction
            | stepped _ rejected =>
                rw [consumed_of_error unfinished rejected, rejected]
                exact ⟨rfl, rfl⟩
        | cons transition continues =>
            obtain ⟨rfl, later⟩ := List.cons.inj split
            have stepped := step_of_transition transition
            have continued := inductionHypothesis.mpr ⟨stop, token, rest, later, continues, refuses⟩
            rw [consumed_of_ok unfinished stepped, stepped, continued.2]
            exact ⟨continued.1, rfl⟩

variable {limit : Nat}

theorem Transition.unfinished {token : Token} {progress next : Progress}
    (transition : Transition limit token progress next) : token.kind ≠ .endOfInput := by
  cases transition <;> simp [*]

theorem Leads.unfinished {progress next : Progress} {tokens : List Token}
    (leads : Leads limit progress tokens next) :
    ∀ token ∈ tokens, token.kind ≠ .endOfInput := by
  induction leads with
  | nil => simp
  | cons transition _ inductionHypothesis =>
      exact List.forall_mem_cons.mpr ⟨transition.unfinished, inductionHypothesis⟩

end Progress

namespace TokenQueue

theorem toList_nil (last : Position) :
    TokenSource.toList (TokenQueue.mk [] last) = [⟨.endOfInput, none, last⟩] :=
  TokenSource.toList_of_ended rfl

theorem toList_cons_of_ended {token : Token} (ended : token.kind = .endOfInput)
    (rest : List Token) (last : Position) :
    TokenSource.toList (TokenQueue.mk (token :: rest) last) = [token] :=
  TokenSource.toList_of_ended ended

theorem toList_cons_of_token {token : Token} (unfinished : token.kind ≠ .endOfInput)
    (rest : List Token) (last : Position) :
    TokenSource.toList (TokenQueue.mk (token :: rest) last) =
      token :: TokenSource.toList (TokenQueue.mk rest token.position) := by
  have following : TokenSource.next (TokenQueue.mk (token :: rest) last) =
      (token, ⟨rest, token.position⟩) := by
    simp [TokenSource.next, next, unfinished]
  have kept : (TokenSource.next (TokenQueue.mk (token :: rest) last)).1.kind ≠ .endOfInput :=
    unfinished
  rw [TokenSource.toList_of_token kept, following]

/-- A list of tokens hands out what it begins with, up to an end of the input. -/
theorem toList_append {before : List Token}
    (unfinished : ∀ token ∈ before, token.kind ≠ .endOfInput) (last : Position) (token : Token)
    (rest : List Token) :
    ∃ later, TokenSource.toList (TokenQueue.mk (before ++ token :: rest) last) =
      before ++ token :: later := by
  induction before generalizing last with
  | nil =>
      by_cases ended : token.kind = .endOfInput
      · exact ⟨[], toList_cons_of_ended ended rest last⟩
      · exact ⟨_, toList_cons_of_token ended rest last⟩
  | cons first before inductionHypothesis =>
      rw [List.forall_mem_cons] at unfinished
      obtain ⟨later, handedOut⟩ := inductionHypothesis unfinished.2 first.position
      exact ⟨later, by rw [List.cons_append, toList_cons_of_token unfinished.1, handedOut,
        List.cons_append]⟩

/-- A token that a list hands out stands in the list, unless it is the end that is added to it. -/
theorem split_of_toList_eq {tokens before rest : List Token} {token : Token} {last : Position}
    (unfinished : ∀ token ∈ before, token.kind ≠ .endOfInput)
    (split : TokenSource.toList (TokenQueue.mk tokens last) = before ++ token :: rest) :
    (∃ later, tokens = before ++ token :: later) ∨
      tokens = before ∧
        token = ⟨.endOfInput, none, (before.map Token.position).getLastD last⟩ := by
  induction before generalizing tokens last with
  | nil =>
      cases tokens with
      | nil =>
          rw [toList_nil] at split
          exact .inr ⟨rfl, (List.cons.inj split).1.symm⟩
      | cons first tokens =>
          have head : first = token := by
            by_cases ended : first.kind = .endOfInput
            · rw [toList_cons_of_ended ended] at split
              exact (List.cons.inj split).1
            · rw [toList_cons_of_token ended] at split
              exact (List.cons.inj split).1
          exact .inl ⟨tokens, by rw [head, List.nil_append]⟩
  | cons earlier before inductionHypothesis =>
      rw [List.forall_mem_cons] at unfinished
      cases tokens with
      | nil =>
          rw [toList_nil] at split
          simp at split
      | cons first tokens =>
          by_cases ended : first.kind = .endOfInput
          · rw [toList_cons_of_ended ended] at split
            simp at split
          · rw [toList_cons_of_token ended, List.cons_append] at split
            obtain ⟨rfl, following⟩ := List.cons.inj split
            rcases inductionHypothesis unfinished.2 following with ⟨later, rfl⟩ | ⟨rfl, padding⟩
            · exact .inl ⟨later, rfl⟩
            · exact .inr ⟨rfl, by rw [padding, List.map_cons, List.getLastD_cons]⟩

end TokenQueue

namespace Script

open Progress

/-- Whether reading a list of tokens fails with a rejection once the tokens before have been
taken, and no others. -/
structure StopsAt (limit : Nat) (tokens before : List Token) (rejection : Rejection) : Prop where
  result : parse (TokenQueue.ofList tokens) limit = .error rejection
  consumed : Progress.start.consumed limit (TokenQueue.ofList tokens) = before

theorem stopsAt_append_iff {limit : Nat} {stop : Progress} {before : List Token}
    (leads : Leads limit .start before stop) {token : Token} {rest : List Token}
    {rejection : Rejection} :
    StopsAt limit (before ++ token :: rest) before rejection ↔
      Refuses limit stop token rejection := by
  obtain ⟨later, handedOut⟩ :=
    TokenQueue.toList_append leads.unfinished .origin token rest
  constructor
  · rintro ⟨result, consumed⟩
    obtain ⟨otherStop, other, rest, split, otherLeads, refuses⟩ :=
      run_eq_error_and_consumed_iff.mp ⟨result, consumed⟩
    obtain rfl := leads.unique otherLeads
    have same := handedOut.symm.trans split
    obtain ⟨rfl, -⟩ := List.cons.inj (List.append_cancel_left same)
    exact refuses
  · intro refuses
    have run := run_eq_error_and_consumed_iff.mpr
      ⟨stop, token, later, handedOut, leads, refuses⟩
    exact ⟨run.1, run.2⟩

end Script

end Cohort
