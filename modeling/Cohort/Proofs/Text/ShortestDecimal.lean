import Cohort.Proofs.Text.Rounding
import Mathlib.Tactic.NormNum

/-!
# The shortest decimal of a double

Decimals of a given length are the multiples of one power of ten.  As the numbers that are rounded
to a double fill an interval around it, one of these multiples is in the interval only if one of
the two next to the double is.  Seventeen digits always suffice, because the multiples are then
closer together than the interval is wide.
-/

namespace Cohort.Text

namespace Decimal

theorem size_eq_of_le {decimal : Decimal} {lower : ℤ} (le : lower ≤ decimal.exponent) :
    decimal.size = (mk (decimal.digits * 10 ^ (decimal.exponent - lower).toNat) lower).size := by
  have sum : lower + (decimal.exponent - lower).toNat = decimal.exponent := by omega
  unfold size
  push_cast
  rw [mul_assoc, pow_mul_zpow (by norm_num) sum]

theorem size_lt {decimal : Decimal} {length : ℕ} (fewer : decimal.digits < 10 ^ length) :
    decimal.size < 10 ^ (decimal.exponent + length) := by
  have digits : (decimal.digits : ℚ) < 10 ^ length := by exact_mod_cast fewer
  have positive : (0 : ℚ) < 10 ^ decimal.exponent := by positivity
  calc decimal.size < 10 ^ length * 10 ^ decimal.exponent := mul_lt_mul_of_pos_right digits positive
    _ = 10 ^ (decimal.exponent + length) := pow_mul_zpow (by norm_num) rfl

theorem size_mk_zero (exponent : ℤ) : (mk 0 exponent).size = 0 := by
  rw [size, Nat.cast_zero, zero_mul]

end Decimal

namespace Binary

variable {value : Binary}

/-!
### The place of the first digit
-/

theorem lt_zpow_iff (exponent : ℤ) :
    (compareScaled 1 exponent value.mantissa value.exponent == .gt) = true ↔
      value.size < 10 ^ exponent := by
  rw [beq_iff_eq, compareScaled_eq, compare_gt_iff_gt, Nat.cast_one, one_mul]
  rfl

theorem IsCanonical.size_lt (canonical : value.IsCanonical) : value.size < 10 ^ (309 : ℤ) := by
  have digits : (value.mantissa : ℚ) < 2 ^ 53 := by exact_mod_cast canonical.mantissa_lt
  have place : value.spacing ≤ 2 ^ (972 : ℤ) :=
    zpow_le_zpow_right₀ (by norm_num) canonical.exponent_le
  have powers : (2 : ℚ) ^ (53 + 972) < 10 ^ 309 := by
    have whole : 2 ^ (53 + 972) < 10 ^ 309 := by decide +kernel
    exact_mod_cast whole
  calc value.size = value.mantissa * value.spacing := size_eq value
    _ < 2 ^ 53 * value.spacing := mul_lt_mul_of_pos_right digits value.spacing_pos
    _ ≤ 2 ^ 53 * 2 ^ (972 : ℤ) := by gcongr
    _ = 2 ^ (53 + 972) := by rw [pow_add, zpow_ofNat]
    _ < 10 ^ 309 := powers
    _ = 10 ^ (309 : ℤ) := (zpow_ofNat _ _).symm

theorem IsCanonical.lt_size (canonical : value.IsCanonical) (positive : 0 < value.mantissa) :
    10 ^ (-325 : ℤ) < value.size := by
  have digits : (1 : ℚ) ≤ value.mantissa := by exact_mod_cast positive
  have place : (2 : ℚ) ^ (-1074 : ℤ) ≤ value.spacing :=
    zpow_le_zpow_right₀ (by norm_num) canonical.exponent_ge
  have powers : (2 : ℚ) ^ 1074 < 10 ^ 325 := by
    have whole : 2 ^ 1074 < 10 ^ 325 := by decide +kernel
    exact_mod_cast whole
  calc (10 : ℚ) ^ (-325 : ℤ) = (10 ^ 325)⁻¹ := by rw [zpow_neg, zpow_ofNat]
    _ < (2 ^ 1074)⁻¹ := inv_strictAnti₀ (by positivity) powers
    _ = 2 ^ (-1074 : ℤ) := by rw [zpow_neg, zpow_ofNat]
    _ ≤ value.spacing := place
    _ ≤ value.mantissa * value.spacing := le_mul_of_one_le_left value.spacing_pos.le digits

/-- The place before which a double has no digit, and in which it has one unless it is zero. -/
theorem IsCanonical.magnitude_spec (canonical : value.IsCanonical) :
    value.size < 10 ^ value.magnitude ∧
      (0 < value.mantissa → 10 ^ (value.magnitude - 1) ≤ value.size) := by
  unfold magnitude
  rw [List.find?_map]
  cases found : (List.range 640).find? _ with
  | none =>
      have missing := List.find?_range_eq_none.mp found 634 (by norm_num)
      have reached := canonical.size_lt
      rw [Function.comp_apply, Bool.not_eq_true', ← Bool.not_eq_true, lt_zpow_iff] at missing
      exact absurd reached missing
  | some index =>
      obtain ⟨less, -, first⟩ := List.find?_range_eq_some.mp found
      rw [Function.comp_apply, lt_zpow_iff] at less
      refine ⟨less, fun positive => ?_⟩
      have above := canonical.lt_size positive
      cases index with
      | zero => exact absurd less (not_lt_of_gt above)
      | succ before =>
          have missing := first before (Nat.lt_succ_self before)
          rw [Function.comp_apply, Bool.not_eq_true', ← Bool.not_eq_true, lt_zpow_iff] at missing
          have place : ((before + 1 : ℕ) : ℤ) - 325 - 1 = before - 325 := by omega
          rw [Option.map_some, Option.getD_some, place]
          exact le_of_not_gt missing

/-!
### Decimals of a given length
-/

theorem wholePart_eq (value : Binary) (exponent : ℤ) :
    value.wholePart exponent =
      value.mantissa * 2 ^ value.exponent.toNat * 10 ^ (-exponent).toNat
        / (10 ^ exponent.toNat * 2 ^ (-value.exponent).toNat) := by
  simp only [wholePart, Nat.pow_eq]

theorem wholePart_le (value : Binary) (exponent : ℤ) :
    value.wholePart exponent * 10 ^ exponent ≤ value.size := by
  apply le_of_mul_le_mul_right _ (commonFactor_pos exponent value.exponent)
  rw [tens_mul_commonFactor, size, twos_mul_commonFactor, mul_assoc, wholePart_eq]
  exact_mod_cast Nat.div_mul_le_self _ _

theorem lt_wholePart_add_one (value : Binary) (exponent : ℤ) :
    value.size < (value.wholePart exponent + 1 : ℕ) * 10 ^ exponent := by
  apply lt_of_mul_lt_mul_right _ (commonFactor_pos exponent value.exponent).le
  rw [tens_mul_commonFactor, size, twos_mul_commonFactor, mul_assoc (_ + 1), wholePart_eq]
  have divisor : 0 < 10 ^ exponent.toNat * 2 ^ (-value.exponent).toNat := by positivity
  exact_mod_cast Nat.lt_mul_of_div_lt (Nat.lt_succ_self _) divisor

/-- The two decimals with a given exponent that are next to a double. -/
def below (value : Binary) (exponent : ℤ) : Decimal :=
  ⟨value.wholePart exponent, exponent⟩

def above (value : Binary) (exponent : ℤ) : Decimal :=
  ⟨value.wholePart exponent + 1, exponent⟩

theorem size_below_le (value : Binary) (exponent : ℤ) :
    (value.below exponent).size ≤ value.size :=
  value.wholePart_le exponent

theorem lt_size_above (value : Binary) (exponent : ℤ) :
    value.size < (value.above exponent).size :=
  value.lt_wholePart_add_one exponent

theorem size_above_eq (value : Binary) (exponent : ℤ) :
    (value.above exponent).size = (value.below exponent).size + 10 ^ exponent := by
  unfold above below Decimal.size
  push_cast
  ring

/-- Any other decimal with that exponent is on the far side of one of the two. -/
theorem size_le_below_or_above_le_size (value : Binary) (exponent : ℤ) (count : ℕ) :
    (Decimal.mk count exponent).size ≤ (value.below exponent).size ∨
      (value.above exponent).size ≤ (Decimal.mk count exponent).size := by
  have positive : (0 : ℚ) < 10 ^ exponent := by positivity
  rcases Nat.lt_or_ge (value.wholePart exponent) count with more | fewer
  · have digits : ((value.wholePart exponent + 1 : ℕ) : ℚ) ≤ count := by exact_mod_cast more
    exact .inr (mul_le_mul_of_nonneg_right digits positive.le)
  · have digits : (count : ℚ) ≤ value.wholePart exponent := by exact_mod_cast fewer
    exact .inl (mul_le_mul_of_nonneg_right digits positive.le)

/-- Whether a decimal is rounded to a double, and no other with the same exponent is nearer. -/
structure IsNearestWith (value : Binary) (exponent : ℤ) (decimal : Decimal) : Prop where
  next : decimal = value.below exponent ∨ decimal = value.above exponent
  covers : value.Covers decimal.size
  nearest : ∀ count, value.Covers (Decimal.mk count exponent).size →
    |decimal.size - value.size| ≤ |(Decimal.mk count exponent).size - value.size|

theorem isNearestWith_below {exponent : ℤ} (covers : value.Covers (value.below exponent).size)
    (nearer : value.Covers (value.above exponent).size →
      2 * value.size ≤ (value.below exponent).size + (value.above exponent).size) :
    value.IsNearestWith exponent (value.below exponent) where
  next := .inl rfl
  covers := covers
  nearest count coversCount := by
    have before := value.size_below_le exponent
    have behind := value.lt_size_above exponent
    rw [abs_of_nonpos (by linarith)]
    rcases value.size_le_below_or_above_le_size exponent count with lower | higher
    · rw [abs_of_nonpos (by linarith)]
      linarith
    · have closer := nearer (value.covers_size.of_between coversCount behind.le higher)
      rw [abs_of_nonneg (by linarith)]
      linarith

theorem isNearestWith_above {exponent : ℤ} (covers : value.Covers (value.above exponent).size)
    (nearer : value.Covers (value.below exponent).size →
      (value.below exponent).size + (value.above exponent).size ≤ 2 * value.size) :
    value.IsNearestWith exponent (value.above exponent) where
  next := .inr rfl
  covers := covers
  nearest count coversCount := by
    have before := value.size_below_le exponent
    have behind := value.lt_size_above exponent
    rw [abs_of_nonneg (by linarith)]
    rcases value.size_le_below_or_above_le_size exponent count with lower | higher
    · have closer := nearer (coversCount.of_between value.covers_size lower before)
      rw [abs_of_nonpos (by linarith)]
      linarith
    · rw [abs_of_nonneg (by linarith)]
      linarith

theorem compareScaled_middle (value : Binary) (exponent : ℤ) :
    compareScaled (2 * value.wholePart exponent + 1) exponent (2 * value.mantissa)
        value.exponent =
      compare ((value.below exponent).size + (value.above exponent).size) (2 * value.size) := by
  rw [compareScaled_eq]
  congr 1
  · unfold below above Decimal.size
    push_cast
    ring
  · unfold size
    push_cast
    ring

theorem notCovers_of_isNearest_eq_false {decimal : Decimal}
    (far : value.isNearest decimal = false) : ¬ value.Covers decimal.size := by
  rw [← isNearest_iff, far]
  exact Bool.false_ne_true

/-- The decimal that is found is one of the two next to the double. -/
theorem isNearestWith_of_decimalWith? {exponent : ℤ} {decimal : Decimal}
    (found : value.decimalWith? exponent = some decimal) :
    value.IsNearestWith exponent decimal := by
  have middle := value.compareScaled_middle exponent
  unfold decimalWith? at found
  cases low : value.isNearest ⟨value.wholePart exponent, exponent⟩ with
  | false =>
      have notBelow := notCovers_of_isNearest_eq_false low
      cases high : value.isNearest ⟨value.wholePart exponent + 1, exponent⟩ with
      | false => simp [low, high] at found
      | true =>
          simp only [List.filter, low, high, Option.some.injEq] at found
          subst found
          exact isNearestWith_above (isNearest_iff.mp high) fun covers => absurd covers notBelow
  | true =>
      have coversBelow := isNearest_iff.mp low
      cases high : value.isNearest ⟨value.wholePart exponent + 1, exponent⟩ with
      | false =>
          have notAbove := notCovers_of_isNearest_eq_false high
          simp only [List.filter, low, high, Option.some.injEq] at found
          subst found
          exact isNearestWith_below coversBelow fun covers => absurd covers notAbove
      | true =>
          have coversAbove := isNearest_iff.mp high
          simp only [List.filter, low, high, middle] at found
          split at found
          next more =>
            cases found
            exact isNearestWith_below coversBelow fun _ => (compare_gt_iff_gt.mp more).le
          next less =>
            cases found
            exact isNearestWith_above coversAbove fun _ => (compare_lt_iff_lt.mp less).le
          next same =>
            have halfway := compare_eq_iff_eq.mp same
            split at found
            next =>
              cases found
              exact isNearestWith_below coversBelow fun _ => halfway.ge
            next =>
              cases found
              exact isNearestWith_above coversAbove fun _ => halfway.le

theorem covers_below_or_above {exponent : ℤ} {count : ℕ}
    (covers : value.Covers (Decimal.mk count exponent).size) :
    value.Covers (value.below exponent).size ∨ value.Covers (value.above exponent).size := by
  have before := value.size_below_le exponent
  have behind := value.lt_size_above exponent
  rcases value.size_le_below_or_above_le_size exponent count with lower | higher
  · exact .inl (covers.of_between value.covers_size lower before)
  · exact .inr (value.covers_size.of_between covers behind.le higher)

theorem isSome_decimalWith? {exponent : ℤ}
    (covers : value.Covers (value.below exponent).size ∨
      value.Covers (value.above exponent).size) :
    (value.decimalWith? exponent).isSome := by
  simp only [← isNearest_iff, below, above] at covers
  unfold decimalWith?
  cases low : value.isNearest ⟨value.wholePart exponent, exponent⟩ with
  | false =>
      rw [low] at covers
      simp [covers.resolve_left Bool.false_ne_true, low]
  | true =>
      cases high : value.isNearest ⟨value.wholePart exponent + 1, exponent⟩ with
      | false => simp [low, high]
      | true =>
          simp only [List.filter, low, high]
          split <;> rfl

/-!
### Lengths
-/

theorem size_mk_zero_eq (zero : value.mantissa = 0) (exponent : ℤ) :
    (Decimal.mk 0 exponent).size = value.size := by
  rw [Decimal.size_mk_zero, size_eq, zero, Nat.cast_zero, zero_mul]

theorem isSome_decimalOfLength? {length count : ℕ}
    (covers : value.Covers (Decimal.mk count (value.magnitude - length)).size) :
    (value.decimalOfLength? length).isSome :=
  isSome_decimalWith? (covers_below_or_above covers)

/-- If a decimal with few digits is covered, so is a multiple of the power of ten that leaves a
double that many digits, and it is no further away. -/
theorem IsCanonical.exists_multiple (canonical : value.IsCanonical) {decimal : Decimal} {length : ℕ}
    (covers : value.Covers decimal.size) (fewer : decimal.digits < 10 ^ length)
    (positive : 0 < length) :
    ∃ count, value.Covers (Decimal.mk count (value.magnitude - length)).size ∧
      |(Decimal.mk count (value.magnitude - length)).size - value.size| ≤
        |decimal.size - value.size| := by
  by_cases multiple : value.magnitude - length ≤ decimal.exponent
  · refine ⟨decimal.digits * 10 ^ (decimal.exponent - (value.magnitude - length)).toNat, ?_⟩
    have same := Decimal.size_eq_of_le multiple
    rw [← same]
    exact ⟨covers, le_rfl⟩
  · by_cases zero : value.mantissa = 0
    · refine ⟨0, ?_⟩
      rw [size_mk_zero_eq zero, sub_self, abs_zero]
      exact ⟨value.covers_size, abs_nonneg _⟩
    · -- The decimal is smaller than the least number with a digit in the first place.
      have first := canonical.magnitude_spec.2 (Nat.pos_of_ne_zero zero)
      have same : (Decimal.mk (10 ^ (length - 1)) (value.magnitude - length)).size =
          10 ^ (value.magnitude - 1) := by
        unfold Decimal.size
        push_cast
        exact pow_mul_zpow (by norm_num) (by omega)
      have smaller := Decimal.size_lt fewer
      have lower : decimal.size ≤ 10 ^ (value.magnitude - 1) :=
        smaller.le.trans (zpow_le_zpow_right₀ (by norm_num) (by omega))
      refine ⟨10 ^ (length - 1), ?_⟩
      rw [same]
      refine ⟨covers.of_between value.covers_size lower first, ?_⟩
      rw [abs_of_nonpos (by linarith), abs_of_nonpos (by linarith)]
      linarith

theorem IsCanonical.size_lt_width (canonical : value.IsCanonical) :
    value.size < 10 ^ 16 * (value.spacingBelow / 2 + value.spacing / 2) := by
  have positive := value.spacing_pos
  rw [size_eq]
  unfold spacingBelow
  split
  next narrow =>
    rw [(canonical.narrowBelow_iff.mp narrow).1]
    push_cast
    linarith
  next =>
    have digits : (value.mantissa : ℚ) < 2 ^ 53 := by exact_mod_cast canonical.mantissa_lt
    have small := mul_lt_mul_of_pos_right digits positive
    linarith

theorem covers_below_or_above_of_lt {exponent : ℤ}
    (narrow : (10 : ℚ) ^ exponent < value.spacingBelow / 2 + value.spacing / 2) :
    value.Covers (value.below exponent).size ∨ value.Covers (value.above exponent).size := by
  have before := value.size_below_le exponent
  have behind := value.lt_size_above exponent
  have apart := value.size_above_eq exponent
  have half := value.spacing_pos
  have halfBelow := value.spacingBelow_pos
  rcases lt_or_ge (value.size - value.spacingBelow / 2) (value.below exponent).size with near | far
  · exact .inl (covers_of_lt near (by linarith))
  · exact .inr (covers_of_lt (by linarith) (by linarith))

/-- Seventeen digits are always enough. -/
theorem IsCanonical.isSome_seventeen (canonical : value.IsCanonical) :
    (value.decimalOfLength? 17).isSome := by
  obtain zero | positive := Nat.eq_zero_or_pos value.mantissa
  · have covers := value.covers_size
    rw [← size_mk_zero_eq zero (value.magnitude - (17 : ℕ))] at covers
    exact isSome_decimalOfLength? covers
  · apply isSome_decimalWith?
    apply covers_below_or_above_of_lt
    have first := canonical.magnitude_spec.2 positive
    have width := canonical.size_lt_width
    have place : (10 : ℚ) ^ 16 * 10 ^ (value.magnitude - (17 : ℕ)) = 10 ^ (value.magnitude - 1) :=
      pow_mul_zpow (by norm_num) (by omega)
    rw [← place] at first
    exact lt_of_mul_lt_mul_left (first.trans_lt width) (by norm_num)

end Binary

theorem Decimal.size_strip (steps : ℕ) (decimal : Decimal) :
    (decimal.strip steps).size = decimal.size := by
  induction steps generalizing decimal with
  | zero => rfl
  | succ steps inductionHypothesis =>
      unfold strip
      split
      next zero =>
        have digits : ((decimal.digits / 10 : ℕ) : ℚ) * 10 = decimal.digits := by
          exact_mod_cast Nat.div_mul_cancel (Nat.dvd_of_mod_eq_zero zero.1)
        rw [inductionHypothesis]
        unfold size
        dsimp only
        rw [zpow_add_one₀ (by norm_num), ← digits]
        ring
      next => rfl

theorem Decimal.digits_strip_le (steps : ℕ) (decimal : Decimal) :
    (decimal.strip steps).digits ≤ decimal.digits := by
  induction steps generalizing decimal with
  | zero => exact le_rfl
  | succ steps inductionHypothesis =>
      unfold strip
      split
      next => exact (inductionHypothesis _).trans (Nat.div_le_self _ _)
      next => exact le_rfl

/-- A power of ten loses a zero at least. -/
theorem Decimal.digits_strip_lt {steps length : ℕ} {decimal : Decimal}
    (le : decimal.digits ≤ 10 ^ length) (positive : 0 < length) :
    (decimal.strip (steps + 1)).digits < 10 ^ length := by
  unfold strip
  split
  next zero =>
    have less := digits_strip_le steps ⟨decimal.digits / 10, decimal.exponent + 1⟩
    dsimp only at less
    omega
  next more =>
    refine lt_of_le_of_ne le fun same => more ?_
    rw [same]
    exact ⟨Nat.mod_eq_zero_of_dvd (dvd_pow_self 10 positive.ne'), by positivity⟩

/-!
### The shortest decimal
-/

namespace Binary

variable {value : Binary}

theorem IsNearestWith.digits_le {length : ℕ} {decimal : Decimal} (canonical : value.IsCanonical)
    (isNearest : value.IsNearestWith (value.magnitude - length) decimal) :
    decimal.digits ≤ 10 ^ length := by
  have less : value.wholePart (value.magnitude - length) < 10 ^ length := by
    have positive : (0 : ℚ) < 10 ^ (value.magnitude - length) := by positivity
    have place : (10 : ℚ) ^ length * 10 ^ (value.magnitude - length) = 10 ^ value.magnitude :=
      pow_mul_zpow (by norm_num) (by omega)
    have bound := value.wholePart_le (value.magnitude - length)
    replace bound := bound.trans_lt canonical.magnitude_spec.1
    rw [← place] at bound
    exact_mod_cast lt_of_mul_lt_mul_right bound positive.le
  rcases isNearest.next with rfl | rfl
  · exact less.le
  · exact less

/-- The decimal is the one of the least length that has any. -/
theorem IsCanonical.exists_length (canonical : value.IsCanonical) :
    ∃ (length : ℕ) (decimal : Decimal), 0 < length ∧
      value.decimalOfLength? length = some decimal ∧
      (∀ shorter, 0 < shorter → shorter < length → value.decimalOfLength? shorter = none) ∧
      value.shortestDecimal = decimal.strip 17 := by
  unfold shortestDecimal
  cases found : (List.range 17).findSome? fun index => value.decimalOfLength? (index + 1) with
  | none =>
      have missing := List.findSome?_eq_none_iff.mp found 16 (by decide)
      rw [Option.eq_none_iff_forall_ne_some] at missing
      obtain ⟨decimal, some⟩ := Option.isSome_iff_exists.mp canonical.isSome_seventeen
      exact absurd some (missing decimal)
  | some decimal =>
      obtain ⟨before, index, behind, split, reached, first⟩ := List.findSome?_eq_some_iff.mp found
      rw [List.range_eq_range', List.range'_eq_append_iff] at split
      obtain ⟨count, -, rfl, rest⟩ := split
      obtain ⟨place, -, -⟩ := List.range'_eq_cons_iff.mp rest.symm
      rw [zero_add, mul_one] at place
      subst place
      refine ⟨count + 1, decimal, Nat.succ_pos _, reached, ?_, rfl⟩
      intro shorter positive less
      obtain ⟨index, rfl⟩ := Nat.exists_eq_succ_of_ne_zero positive.ne'
      exact first index (by rw [List.mem_range'_1]; omega)

end Binary

def Decimal.length (decimal : Decimal) : ℕ :=
  (Nat.toDigits 10 decimal.digits).length

theorem Decimal.length_pos (decimal : Decimal) : 0 < decimal.length :=
  Nat.length_toDigits_pos

theorem Decimal.digits_lt (decimal : Decimal) : decimal.digits < 10 ^ decimal.length :=
  (Nat.length_toDigits_le_iff (by norm_num) decimal.length_pos).mp le_rfl

theorem Decimal.length_le {decimal : Decimal} {length : ℕ} (positive : 0 < length)
    (less : decimal.digits < 10 ^ length) : decimal.length ≤ length :=
  (Nat.length_toDigits_le_iff (by norm_num) positive).mpr less

/-- Whether no decimal that is rounded to a double has fewer digits, and none with as few is
nearer to the double. -/
structure IsShortest (value : Float) (decimal : Decimal) : Prop where
  roundsTo : RoundsTo decimal.size value
  fewest : ∀ other : Decimal, RoundsTo other.size value → decimal.length ≤ other.length
  nearest : ∀ other : Decimal, RoundsTo other.size value → other.length ≤ decimal.length →
    |decimal.size - doubleSize value| ≤ |other.size - doubleSize value|

theorem isShortest_shortestDecimal (value : Float) :
    IsShortest value (Binary.ofFloat value).shortestDecimal := by
  have canonical := Binary.isCanonical_ofFloat value
  obtain ⟨length, decimal, positive, found, first, shortest⟩ := canonical.exists_length
  have isNearest := Binary.isNearestWith_of_decimalWith? found
  have stripped : (decimal.strip 17).length ≤ length :=
    Decimal.length_le positive
      (Decimal.digits_strip_lt (isNearest.digits_le canonical) positive)
  rw [shortest]
  refine ⟨?_, fun other rounded => ?_, fun other rounded shorter => ?_⟩
  · rw [Decimal.size_strip, ← Binary.covers_ofFloat_iff decimal.size_nonneg]
    exact isNearest.covers
  · rw [← Binary.covers_ofFloat_iff other.size_nonneg] at rounded
    by_contra longer
    obtain ⟨count, covers, -⟩ := canonical.exists_multiple rounded other.digits_lt other.length_pos
    have found := Binary.isSome_decimalOfLength? covers
    rw [first other.length other.length_pos (by omega)] at found
    exact Bool.false_ne_true found
  · rw [← Binary.covers_ofFloat_iff other.size_nonneg] at rounded
    have fewer : other.digits < 10 ^ length :=
      other.digits_lt.trans_le (Nat.pow_le_pow_right (by norm_num) (shorter.trans stripped))
    obtain ⟨count, covers, nearer⟩ := canonical.exists_multiple rounded fewer positive
    rw [Decimal.size_strip, ← Binary.size_ofFloat]
    exact (isNearest.nearest count covers).trans nearer

theorem isShortest_zero {value : Float} (zero : doubleSize value = 0) :
    IsShortest value ⟨0, 0⟩ := by
  have size := Decimal.size_mk_zero 0
  refine ⟨⟨fun other _ => ?_, fun other _ different asNear => ?_⟩, fun other _ => ?_,
    fun other _ _ => ?_⟩
  · rw [size, zero, sub_self, abs_zero]
    exact abs_nonneg _
  · rw [size, zero, sub_self, abs_zero, abs_eq_zero, sub_eq_zero] at asNear
    exact absurd (asNear.symm.trans zero.symm) different
  · exact other.length_pos
  · rw [size, zero, sub_self, abs_zero]
    exact abs_nonneg _

end Cohort.Text
