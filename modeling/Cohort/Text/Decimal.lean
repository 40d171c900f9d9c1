/-!
Decimal numbers of a fixed width, as dates and clock times are written.

`fixedWidth` writes the last digits of a number and `readFixedWidth?` reads exactly that many
digits back.
-/

namespace Cohort.Text

/-- The last `width` decimal digits of a number, padded with zeros. -/
def fixedWidth : (width : Nat) → (number : Nat) → List Char
  | 0, _ => []
  | width + 1, number => Nat.digitChar (number / Nat.pow 10 width % 10) :: fixedWidth width number

@[simp]
theorem length_fixedWidth (width number : Nat) : (fixedWidth width number).length = width := by
  induction width with
  | zero => rfl
  | succ width inductionHypothesis => simp [fixedWidth, inductionHypothesis]

def digitsValue (digits : List Char) : Nat :=
  Nat.ofDigitChars 10 digits 0

@[simp]
theorem digitsValue_nil : digitsValue [] = 0 :=
  rfl

theorem digitsValue_cons (digit : Nat) (small : digit < 10) (digits : List Char) :
    digitsValue (Nat.digitChar digit :: digits) =
      digit * Nat.pow 10 digits.length + digitsValue digits := by
  unfold digitsValue
  rw [Nat.ofDigitChars_cons_digitChar_of_lt_ten small, Nat.ofDigitChars_eq_ofDigitChars_zero]
  simp [Nat.mul_comm]

theorem isDigit_of_mem_fixedWidth {width number : Nat} {character : Char}
    (membership : character ∈ fixedWidth width number) : character.isDigit = true := by
  induction width with
  | zero => simp [fixedWidth] at membership
  | succ width inductionHypothesis =>
      rcases List.mem_cons.mp membership with equality | later
      · subst equality
        rw [Nat.isDigit_digitChar]
        exact decide_eq_true (Nat.mod_lt _ (by decide))
      · exact inductionHypothesis later

theorem digitsValue_fixedWidth (width number : Nat) :
    digitsValue (fixedWidth width number) = number % Nat.pow 10 width := by
  induction width with
  | zero => simp [fixedWidth, Nat.mod_one]
  | succ width inductionHypothesis =>
      rw [fixedWidth, digitsValue_cons _ (Nat.mod_lt _ (by decide)), inductionHypothesis,
        length_fixedWidth]
      simp only [Nat.pow_eq, Nat.pow_succ 10, Nat.mod_mul]
      rw [Nat.mul_comm, Nat.add_comm]

def readFixedWidth? (width : Nat) (text : List Char) : Option (Nat × List Char) :=
  let digits := text.take width
  if digits.length = width ∧ digits.all Char.isDigit then
    some (digitsValue digits, text.drop width)
  else
    none

/-- A number is read back from its digits, whatever follows them. -/
theorem readFixedWidth?_fixedWidth (width number : Nat) (rest : List Char) :
    readFixedWidth? width (fixedWidth width number ++ rest) =
      some (number % Nat.pow 10 width, rest) := by
  have digits : (fixedWidth width number ++ rest).take width = fixedWidth width number := by
    simp
  have remainder : (fixedWidth width number ++ rest).drop width = rest := by
    simp
  have allDigits : (fixedWidth width number).all Char.isDigit = true :=
    List.all_eq_true.mpr fun _ membership => isDigit_of_mem_fixedWidth membership
  simp [readFixedWidth?, digits, remainder, allDigits, digitsValue_fixedWidth]

def readMark? (mark : Char) : List Char → Option (List Char)
  | [] => none
  | character :: rest => if character = mark then some rest else none

/-- Read a whole text as a number without a sign; it must hold a digit and nothing else. -/
def readNatural? (text : List Char) : Option Nat :=
  if text ≠ [] ∧ text.all Char.isDigit then some (digitsValue text) else none

def dropTrailingZeros (digits : List Char) : List Char :=
  (digits.reverse.dropWhile (· == '0')).reverse

end Cohort.Text
