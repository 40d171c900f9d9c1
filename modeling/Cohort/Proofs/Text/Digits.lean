import Cohort.Text.Decimal

/-!
# Digits of numbers

Digits stand for a number.  Zeros in front of them leave it as it is, and zeros behind them
multiply it by powers of ten.
-/

namespace Cohort.Text

/-- Whether some characters are the decimal digits of a number. -/
structure IsDecimal (digits : List Char) (number : Nat) : Prop where
  nonempty : digits ≠ []
  allDigits : ∀ digit ∈ digits, digit.isDigit = true
  value : digitsValue digits = number

theorem readNatural?_eq_some_iff {text : List Char} {number : Nat} :
    readNatural? text = some number ↔ IsDecimal text number := by
  unfold readNatural?
  constructor
  · intro read
    split at read
    next digits => exact ⟨digits.1, List.all_eq_true.mp digits.2, Option.some.inj read⟩
    next => contradiction
  · rintro ⟨nonempty, allDigits, rfl⟩
    rw [if_pos ⟨nonempty, List.all_eq_true.mpr allDigits⟩]

theorem IsDecimal.not_cons {character : Char} {rest : List Char} {number : Nat}
    (noDigit : character.isDigit = false) : ¬IsDecimal (character :: rest) number := by
  intro decimal
  have digit := decimal.allDigits character List.mem_cons_self
  rw [noDigit] at digit
  contradiction

theorem digitsValue_append_zeros (digits : List Char) (count : Nat) :
    digitsValue (digits ++ List.replicate count '0') = digitsValue digits * Nat.pow 10 count := by
  simp [digitsValue, Nat.ofDigitChars_append, Nat.mul_comm]

theorem isDecimal_toDigits (number : Nat) : IsDecimal (Nat.toDigits 10 number) number where
  nonempty := List.ne_nil_of_length_pos Nat.length_toDigits_pos
  allDigits _ membership := Nat.isDigit_of_mem_toDigits (by decide) (Nat.le_refl 10) membership
  value := Nat.ofDigitChars_toDigits (by decide) (Nat.le_refl 10)

variable {digits : List Char} {number : Nat}

theorem IsDecimal.append_zeros (decimal : IsDecimal digits number) (count : Nat) :
    IsDecimal (digits ++ List.replicate count '0') (number * Nat.pow 10 count) where
  nonempty := List.append_ne_nil_of_left_ne_nil decimal.nonempty _
  allDigits := by
    intro digit membership
    rcases List.mem_append.mp membership with written | zero
    · exact decimal.allDigits digit written
    · rw [List.eq_of_mem_replicate zero]
      decide
  value := by
    rw [digitsValue_append_zeros, decimal.value]

theorem IsDecimal.zero_cons (decimal : IsDecimal digits number) :
    IsDecimal ('0' :: digits) number where
  nonempty := List.cons_ne_nil _ _
  allDigits := List.forall_mem_cons.mpr ⟨by decide, decimal.allDigits⟩
  value := decimal.value

theorem IsDecimal.zeros_append (decimal : IsDecimal digits number) (count : Nat) :
    IsDecimal (List.replicate count '0' ++ digits) number := by
  induction count with
  | zero => exact decimal
  | succ count inductionHypothesis => exact inductionHypothesis.zero_cons

end Cohort.Text
