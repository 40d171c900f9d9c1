import Cohort.Proofs.Text.Digits
import Cohort.Proofs.Text.ShortestDecimal

/-!
# The layout of decimals

A decimal is laid out with a point or with a power of ten behind it, and whichever it is, the text
spells the number that the decimal stands for.
-/

namespace Cohort.Text

/-- Digits, which a point may stand between. -/
inductive SpellsFixed : List Char → ℚ → Prop where
  | whole {digits : List Char} {number : ℕ} : IsDecimal digits number → SpellsFixed digits number
  | point {whole fraction : List Char} {number : ℕ} :
      whole ≠ [] → fraction ≠ [] → IsDecimal (whole ++ fraction) number →
      SpellsFixed (whole ++ '.' :: fraction) (number / 10 ^ fraction.length)

/-- Digits with or without a power of ten behind them. -/
inductive SpellsNumber : List Char → ℚ → Prop where
  | fixed {text : List Char} {number : ℚ} : SpellsFixed text number → SpellsNumber text number
  | up {text digits : List Char} {number : ℚ} {exponent : ℕ} :
      SpellsFixed text number → IsDecimal digits exponent →
      SpellsNumber (text ++ 'e' :: '+' :: digits) (number * 10 ^ exponent)
  | down {text digits : List Char} {number : ℚ} {exponent : ℕ} :
      SpellsFixed text number → IsDecimal digits exponent →
      SpellsNumber (text ++ 'e' :: '-' :: digits) (number / 10 ^ exponent)

namespace Decimal

theorem size_eq_mul {decimal : Decimal} {count : ℕ} (up : decimal.exponent = count) :
    decimal.size = decimal.digits * 10 ^ count := by
  rw [size, up, zpow_natCast]

theorem size_eq_div {decimal : Decimal} {count : ℕ} (down : decimal.exponent = -count) :
    decimal.size = decimal.digits / 10 ^ count := by
  rw [size, down, zpow_neg, zpow_natCast, div_eq_mul_inv]

/-- Whole numbers end in zeros, the last one behind the point. -/
theorem spellsFixed_zeros {decimal : Decimal} {count : ℕ} (up : decimal.exponent = count) :
    SpellsFixed (Nat.toDigits 10 decimal.digits ++ List.replicate count '0' ++ ['.', '0'])
      decimal.size := by
  have digits := isDecimal_toDigits decimal.digits
  have written := digits.append_zeros (count + 1)
  rw [List.replicate_succ', ← List.append_assoc] at written
  have spells := SpellsFixed.point
    (List.append_ne_nil_of_left_ne_nil digits.nonempty _) (List.cons_ne_nil _ _) written
  have size : decimal.size =
      ((decimal.digits * 10 ^ (count + 1) : ℕ) : ℚ) / 10 ^ ['0'].length := by
    rw [size_eq_mul up, List.length_singleton]
    push_cast
    ring
  rw [size]
  exact spells

theorem spellsFixed_point {decimal : Decimal} {whole fraction : List Char}
    (nonempty : whole ≠ []) (down : decimal.exponent = -fraction.length)
    (negative : decimal.exponent < 0) (written : IsDecimal (whole ++ fraction) decimal.digits) :
    SpellsFixed (whole ++ '.' :: fraction) decimal.size := by
  have behind : fraction ≠ [] := by
    rintro rfl
    rw [List.length_nil] at down
    omega
  rw [size_eq_div down]
  exact .point nonempty behind written

/-- The first digit stands before the point, if any other digit stands behind it. -/
theorem spellsFixed_first (number : ℕ) :
    SpellsFixed ((Nat.toDigits 10 number).take 1 ++
        if (Nat.toDigits 10 number).drop 1 = [] then [] else '.' :: (Nat.toDigits 10 number).drop 1)
      (number / 10 ^ ((Nat.toDigits 10 number).length - 1)) := by
  have digits := isDecimal_toDigits number
  have first : (Nat.toDigits 10 number).take 1 ≠ [] := by
    simp
  have split := List.take_append_drop 1 (Nat.toDigits 10 number)
  rw [← List.length_drop]
  by_cases single : (Nat.toDigits 10 number).drop 1 = []
  · rw [single, List.append_nil] at split
    rw [if_pos single, single, split, List.append_nil, List.length_nil, pow_zero, div_one]
    exact .whole digits
  · rw [if_neg single]
    rw [← split] at digits
    exact .point first single digits

theorem spellsNumber_scaled {decimal : Decimal} {exponent : ℤ}
    (place : ((Nat.toDigits 10 decimal.digits).length : ℤ) + decimal.exponent - 1 = exponent) :
    SpellsNumber ((Nat.toDigits 10 decimal.digits).take 1 ++
        (if (Nat.toDigits 10 decimal.digits).drop 1 = [] then []
          else '.' :: (Nat.toDigits 10 decimal.digits).drop 1) ++
        'e' :: (if exponent < 0 then '-' else '+') :: Nat.toDigits 10 exponent.natAbs)
      decimal.size := by
  have positive : 0 < (Nat.toDigits 10 decimal.digits).length := Nat.length_toDigits_pos
  have first := spellsFixed_first decimal.digits
  have power := isDecimal_toDigits exponent.natAbs
  generalize behind : (Nat.toDigits 10 decimal.digits).length - 1 = places at first
  by_cases negative : exponent < 0
  · have size : decimal.size = decimal.digits / 10 ^ places / 10 ^ exponent.natAbs := by
      have down : decimal.exponent = -((places + exponent.natAbs : ℕ) : ℤ) := by omega
      rw [div_div, ← pow_add]
      exact size_eq_div down
    rw [if_pos negative, size]
    exact .down first power
  · have size : decimal.size = decimal.digits / 10 ^ places * 10 ^ exponent.natAbs := by
      have sum : decimal.exponent + places = (exponent.natAbs : ℤ) := by omega
      have powers := pow_mul_zpow (by norm_num : (10 : ℚ) ≠ 0) sum
      have nonzero : (10 : ℚ) ^ places ≠ 0 := by positivity
      rw [zpow_natCast] at powers
      rw [Decimal.size, ← powers, div_mul_eq_mul_div, eq_div_iff nonzero]
      ring
    rw [if_neg negative, size]
    exact .up first power

/-- Every layout spells the number that the decimal stands for. -/
theorem spellsNumber_text (decimal : Decimal) : SpellsNumber decimal.text decimal.size := by
  have digits := isDecimal_toDigits decimal.digits
  have positive : 0 < (Nat.toDigits 10 decimal.digits).length := Nat.length_toDigits_pos
  unfold text
  dsimp only
  split
  next whole => exact .fixed (spellsFixed_zeros (Int.toNat_of_nonneg whole.1).symm)
  next notWhole =>
    split
    next within =>
      refine .fixed (spellsFixed_point ?_ ?_ (by omega) ?_)
      · apply List.ne_nil_of_length_pos
        rw [List.length_take]
        omega
      · rw [List.length_drop]
        omega
      · rw [List.take_append_drop]
        exact digits
    next notWithin =>
      split
      next small =>
        change SpellsNumber (['0'] ++ '.' :: (List.replicate _ '0' ++ _)) _
        refine .fixed (spellsFixed_point (List.cons_ne_nil '0' []) ?_ (by omega)
          (digits.zeros_append _).zero_cons)
        rw [List.length_append, List.length_replicate]
        omega
      next => exact spellsNumber_scaled rfl

end Decimal

/-- The text of a double spells a shortest decimal. -/
theorem exists_doubleText_spells (value : Float) :
    ∃ decimal, IsShortest value decimal ∧ SpellsNumber (doubleText value) decimal.size := by
  unfold doubleText
  split
  next zero =>
    exact ⟨_, isShortest_zero (doubleSize_of_beq_zero zero), Decimal.spellsNumber_text ⟨0, 0⟩⟩
  next => exact ⟨_, isShortest_shortestDecimal value, Decimal.spellsNumber_text _⟩

end Cohort.Text
