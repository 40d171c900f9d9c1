import Cohort.Text.Double
import Mathlib.Algebra.Order.Field.Power
import Mathlib.Algebra.Order.Field.Rat
import Mathlib.Tactic.Linarith
import Mathlib.Tactic.Positivity
import Mathlib.Tactic.Ring

/-!
# Numbers and the doubles they are rounded to

A double stands for a whole number times a power of two.  A number is rounded to the nearest
double, and where two are equally near to the one whose bits are even.  So the numbers that are
rounded to one double fill an interval, and `Binary.isNearest` decides whether a decimal lies in
it.
-/

namespace Cohort.Text

/-- The number that a double stands for, without its sign.  An infinite double counts as the power
of two behind the largest finite one. -/
def doubleSize (value : Float) : ℚ :=
  let bits := value.toBits.toNat
  let fraction : ℕ := bits % 2 ^ 52
  let scale : ℕ := bits / 2 ^ 52 % 2 ^ 11
  if scale = 0 then fraction * 2 ^ (-1074 : ℤ)
  else (2 ^ 52 + fraction : ℕ) * 2 ^ ((scale : ℤ) - 1075)

section

open Float.Model Float.Model.UnpackedFloat

theorem toNat_unpackMantissa (bits : BitVec Format.binary64.numBits) :
    (unpackMantissa bits).toNat = bits.toNat % 2 ^ 52 := by
  simp [unpackMantissa]

theorem toNat_unpackExponent (bits : BitVec Format.binary64.numBits) :
    (unpackExponent bits).toNat = bits.toNat / 2 ^ 52 % 2 ^ 11 := by
  simp [unpackExponent, Nat.shiftRight_eq_div_pow]

/-- The bits of a double, in the parts of their format. -/
def packedBits (value : Float) : BitVec Format.binary64.numBits :=
  value.toModel.toBits.toBitVec

theorem doubleSize_eq (value : Float) :
    doubleSize value =
      if (unpackExponent (packedBits value)).toNat = 0 then
        ((unpackMantissa (packedBits value)).toNat : ℚ) * 2 ^ (-1074 : ℤ)
      else
        (2 ^ 52 + (unpackMantissa (packedBits value)).toNat : ℕ) *
          2 ^ (((unpackExponent (packedBits value)).toNat : ℤ) - 1075) := by
  rw [toNat_unpackMantissa, toNat_unpackExponent]
  rfl

theorem toNat_leading_append (fraction : BitVec 52) :
    (1#1 ++ fraction).toNat = 2 ^ 52 + fraction.toNat := by
  have joined := Nat.shiftLeft_add_eq_or_of_lt fraction.isLt 1
  rw [BitVec.toNat_append]
  exact joined.symm.trans (congrArg (· + fraction.toNat) (Nat.one_shiftLeft 52))

/-- The size that the parts of a double stand for. -/
inductive HasSize : Float.Model.UnpackedFloat → ℚ → Prop where
  | zero {sign : Sign} : HasSize (.zero sign) 0
  | finite {sign : Sign} {mantissa : ℕ} {exponent : ℤ} {positive : 0 < mantissa} :
      HasSize (.finite sign mantissa exponent positive) (mantissa * 2 ^ exponent)
  | infinity {sign : Sign} : HasSize (.infinity sign) (2 ^ 1024)
  | notANumber {size : ℚ} : HasSize .notANumber size

theorem hasSize_doubleSize (value : Float) :
    HasSize value.toModel.unpack (doubleSize value) := by
  have bias : (Format.binary64.exponentBias : ℤ) = 1023 := rfl
  rw [doubleSize_eq]
  change HasSize (UnpackedFloat.unpack Format.binary64 (packedBits value)) _
  unfold UnpackedFloat.unpack
  dsimp only
  by_cases greatest : unpackExponent (packedBits value) = -1#11
  · rw [if_pos greatest]
    by_cases none : unpackMantissa (packedBits value) = 0#52
    · have scale : (-1#11).toNat = 2047 := by decide
      have place : ((2047 : ℕ) : ℤ) - 1075 = (972 : ℕ) := by norm_num
      rw [if_pos none, greatest, none, scale, if_neg (by decide), place, zpow_natCast,
        BitVec.toNat_zero, add_zero, Nat.cast_pow, Nat.cast_ofNat, ← pow_add]
      exact .infinity
    · rw [if_neg none]
      exact .notANumber
  · rw [if_neg greatest]
    by_cases least : unpackExponent (packedBits value) = 0#11
    · have place : ((0 : ℕ) : ℤ) - (1023 + (52 : ℕ)) + 1 = -1074 := by norm_num
      rw [if_pos least, least, BitVec.toNat_zero, if_pos rfl]
      by_cases none : unpackMantissa (packedBits value) = 0#52
      · rw [dif_pos none, none, BitVec.toNat_zero, Nat.cast_zero, zero_mul]
        exact .zero
      · rw [dif_neg none, bias, place]
        exact .finite
    · have notLeast : (unpackExponent (packedBits value)).toNat ≠ 0 :=
        fun zero => least (BitVec.eq_of_toNat_eq zero)
      rw [if_neg least, if_neg notLeast, ← toNat_leading_append]
      exact .finite

theorem unpack_zero : (0 : Float).toModel.unpack = .zero .positive := by
  rfl

theorem doubleSize_of_beq_zero {value : Float} (same : (value == 0) = true) :
    doubleSize value = 0 := by
  have size := hasSize_doubleSize value
  generalize doubleSize value = number at size ⊢
  change value.toModel.unpack.beq (0 : Float).toModel.unpack = true at same
  rw [unpack_zero] at same
  cases unpacked : value.toModel.unpack with
  | zero sign =>
      rw [unpacked] at size
      cases size
      rfl
  | infinity sign =>
      rw [unpacked] at same
      cases sign <;> contradiction
  | notANumber =>
      rw [unpacked] at same
      contradiction
  | finite sign mantissa exponent positive =>
      rw [unpacked] at same
      cases sign <;> contradiction

end

/-- Whether a number has at most 53 binary digits, the last of them in a place that doubles have.
The sizes of doubles are such numbers, and so are those that greater exponents would give. -/
def IsBinary (number : ℚ) : Prop :=
  ∃ (mantissa : ℕ) (exponent : ℤ), mantissa < 2 ^ 53 ∧ -1074 ≤ exponent ∧
    number = mantissa * 2 ^ exponent

/-- Whether a number is rounded to the size of a double. -/
structure RoundsTo (number : ℚ) (value : Float) : Prop where
  nearest : ∀ other, IsBinary other → |number - doubleSize value| ≤ |number - other|
  /-- If another number is just as near, the bits of the double are even. -/
  even : ∀ other, IsBinary other → other ≠ doubleSize value →
    |number - other| = |number - doubleSize value| → 2 ∣ value.toBits.toNat

namespace Binary

def size (value : Binary) : ℚ :=
  value.mantissa * 2 ^ value.exponent

/-- Whether the mantissa is written with all its binary digits, as far as they have a place. -/
structure IsCanonical (value : Binary) : Prop where
  mantissa_lt : value.mantissa < 2 ^ 53
  exponent_ge : -1074 ≤ value.exponent
  exponent_le : value.exponent ≤ 972
  filled : -1074 < value.exponent → 2 ^ 52 ≤ value.mantissa
  narrowBelow_iff : value.narrowBelow = true ↔ value.mantissa = 2 ^ 52 ∧ -1074 < value.exponent

theorem isCanonical_ofFloat (value : Float) : (ofFloat value).IsCanonical := by
  have fraction : value.toBits.toNat % 2 ^ 52 < 2 ^ 52 := Nat.mod_lt _ (by decide)
  have scale : value.toBits.toNat / 2 ^ 52 % 2 ^ 11 < 2 ^ 11 := Nat.mod_lt _ (by decide)
  unfold ofFloat
  simp only [Nat.pow_eq]
  split
  next least =>
    refine ⟨?_, ?_, ?_, ?_, ?_⟩
    all_goals simp only [Bool.false_eq_true, false_iff]
    all_goals omega
  next more =>
    refine ⟨?_, ?_, ?_, ?_, ?_⟩
    all_goals simp only [decide_eq_true_eq]
    all_goals omega

theorem size_ofFloat (value : Float) : (ofFloat value).size = doubleSize value := by
  unfold ofFloat doubleSize
  simp only [Nat.pow_eq]
  split <;> rfl

theorem mantissa_ofFloat_even_iff (value : Float) :
    2 ∣ (ofFloat value).mantissa ↔ 2 ∣ value.toBits.toNat := by
  unfold ofFloat
  simp only [Nat.pow_eq]
  split
  all_goals
    dsimp only
    omega

/-- How far away the next greater number is that has a place. -/
def spacing (value : Binary) : ℚ :=
  2 ^ value.exponent

/-- How far away the next smaller number is that has a place. -/
def spacingBelow (value : Binary) : ℚ :=
  if value.narrowBelow then value.spacing / 2 else value.spacing

theorem spacing_pos (value : Binary) : 0 < value.spacing := by
  unfold spacing
  positivity

theorem spacingBelow_pos (value : Binary) : 0 < value.spacingBelow := by
  have positive := value.spacing_pos
  unfold spacingBelow
  split <;> linarith

theorem size_eq (value : Binary) : value.size = value.mantissa * value.spacing :=
  rfl

end Binary

theorem pow_mul_zpow {base : ℚ} (nonzero : base ≠ 0) {count : ℕ} {lower exponent : ℤ}
    (sum : lower + count = exponent) : base ^ count * base ^ lower = base ^ exponent := by
  rw [← sum, zpow_add₀ nonzero, zpow_natCast, mul_comm]

/-- A number with few binary digits is a multiple of any power of two from its last place down. -/
theorem mul_zpow_eq {mantissa : ℕ} {exponent lower : ℤ} (le : lower ≤ exponent) :
    (mantissa : ℚ) * 2 ^ exponent =
      (mantissa * 2 ^ (exponent - lower).toNat : ℕ) * 2 ^ lower := by
  have sum : lower + (exponent - lower).toNat = exponent := by omega
  push_cast
  rw [mul_assoc, pow_mul_zpow (by norm_num) sum]

namespace Binary

variable {value : Binary}

/-- Numbers with a last place below that of a canonical one are smaller. -/
theorem mul_zpow_le {mantissa : ℕ} {exponent : ℤ} (small : mantissa < 2 ^ 53)
    (lower : exponent < value.exponent) :
    (mantissa : ℚ) * 2 ^ exponent ≤ 2 ^ 52 * value.spacing - value.spacing / 2 := by
  have digits : (mantissa : ℚ) ≤ 2 ^ 53 - 1 := by
    have next : (mantissa : ℚ) + 1 ≤ 2 ^ 53 := by exact_mod_cast small
    linarith
  have place : (2 : ℚ) ^ exponent ≤ value.spacing / 2 := by
    have half : value.spacing / 2 = 2 ^ (value.exponent - 1) := by
      rw [spacing, zpow_sub_one₀ (by norm_num), div_eq_mul_inv]
    rw [half]
    exact zpow_le_zpow_right₀ (by norm_num) (by omega)
  have positive : (0 : ℚ) < 2 ^ exponent := by positivity
  calc (mantissa : ℚ) * 2 ^ exponent ≤ (2 ^ 53 - 1) * (value.spacing / 2) := by gcongr
    _ = 2 ^ 52 * value.spacing - value.spacing / 2 := by ring

theorem IsCanonical.mul_spacing_le_size (canonical : value.IsCanonical)
    (above : -1074 < value.exponent) : 2 ^ 52 * value.spacing ≤ value.size := by
  have filled : (2 ^ 52 : ℚ) ≤ value.mantissa := by exact_mod_cast canonical.filled above
  have positive := value.spacing_pos
  rw [size_eq]
  gcongr

theorem IsCanonical.add_spacing_le (canonical : value.IsCanonical) {other : ℚ}
    (isBinary : IsBinary other) (greater : value.size < other) :
    value.size + value.spacing ≤ other := by
  obtain ⟨mantissa, exponent, small, least, rfl⟩ := isBinary
  have positive := value.spacing_pos
  by_cases le : value.exponent ≤ exponent
  · rw [mul_zpow_eq le] at greater ⊢
    have more : value.mantissa < mantissa * 2 ^ (exponent - value.exponent).toNat := by
      exact_mod_cast lt_of_mul_lt_mul_right greater positive.le
    have next : (value.mantissa : ℚ) + 1 ≤
        (mantissa * 2 ^ (exponent - value.exponent).toNat : ℕ) := by
      exact_mod_cast more
    calc value.size + value.spacing = (value.mantissa + 1) * value.spacing := by
          rw [size_eq]
          ring
      _ ≤ _ := mul_le_mul_of_nonneg_right next positive.le
  · have below := mul_zpow_le small (lt_of_not_ge le)
    have filled := canonical.mul_spacing_le_size (by omega)
    linarith

theorem IsCanonical.le_sub_spacingBelow (canonical : value.IsCanonical) {other : ℚ}
    (isBinary : IsBinary other) (smaller : other < value.size) :
    other ≤ value.size - value.spacingBelow := by
  obtain ⟨mantissa, exponent, small, least, rfl⟩ := isBinary
  have positive := value.spacing_pos
  by_cases le : value.exponent ≤ exponent
  · rw [mul_zpow_eq le] at smaller ⊢
    have fewer : mantissa * 2 ^ (exponent - value.exponent).toNat < value.mantissa := by
      exact_mod_cast lt_of_mul_lt_mul_right smaller positive.le
    have next : ((mantissa * 2 ^ (exponent - value.exponent).toNat : ℕ) : ℚ) + 1 ≤
        value.mantissa := by
      exact_mod_cast fewer
    have step := mul_le_mul_of_nonneg_right next positive.le
    have narrow : value.spacingBelow ≤ value.spacing := by
      unfold spacingBelow
      split <;> linarith
    rw [size_eq]
    change _ * value.spacing ≤ _
    linarith
  · have below := mul_zpow_le small (lt_of_not_ge le)
    have filled := canonical.mul_spacing_le_size (by omega)
    unfold spacingBelow
    split
    next => linarith
    next wide =>
      -- The mantissa is not the least one, so the next smaller number has the same last place.
      have notLeast : value.mantissa ≠ 2 ^ 52 :=
        fun least => wide (canonical.narrowBelow_iff.mpr ⟨least, by omega⟩)
      have more : 2 ^ 52 + 1 ≤ value.mantissa := by
        have := canonical.filled (by omega)
        omega
      have digits : (2 ^ 52 + 1 : ℚ) ≤ value.mantissa := by exact_mod_cast more
      have step := mul_le_mul_of_nonneg_right digits positive.le
      rw [size_eq]
      linarith

theorem IsCanonical.isBinary_add_spacing (canonical : value.IsCanonical) :
    IsBinary (value.size + value.spacing) := by
  have small := canonical.mantissa_lt
  have least := canonical.exponent_ge
  have sum : value.size + value.spacing = (value.mantissa + 1 : ℕ) * 2 ^ value.exponent := by
    rw [size_eq]
    push_cast
    unfold spacing
    ring
  rw [sum]
  by_cases fits : value.mantissa + 1 < 2 ^ 53
  · exact ⟨_, _, fits, least, rfl⟩
  · have full : value.mantissa + 1 = 2 ^ 52 * 2 := by omega
    refine ⟨2 ^ 52, value.exponent + 1, by norm_num, by omega, ?_⟩
    rw [full, zpow_add_one₀ (by norm_num)]
    push_cast
    ring

theorem IsCanonical.isBinary_sub_spacingBelow (canonical : value.IsCanonical)
    (positive : 0 < value.mantissa) : IsBinary (value.size - value.spacingBelow) := by
  have small := canonical.mantissa_lt
  have least := canonical.exponent_ge
  unfold spacingBelow
  split
  next narrow =>
    obtain ⟨mantissa, above⟩ := canonical.narrowBelow_iff.mp narrow
    refine ⟨2 ^ 53 - 1, value.exponent - 1, by norm_num, by omega, ?_⟩
    rw [size_eq, mantissa, spacing, zpow_sub_one₀ (by norm_num)]
    push_cast
    ring
  next =>
    refine ⟨value.mantissa - 1, value.exponent, by omega, least, ?_⟩
    rw [size_eq, Nat.cast_sub positive]
    unfold spacing
    push_cast
    ring

/-- Whether a number is nearer to a double than half of the way to the next ones, or just as near
if the double is even. -/
structure Covers (value : Binary) (number : ℚ) : Prop where
  low : value.size - value.spacingBelow / 2 ≤ number
  high : number ≤ value.size + value.spacing / 2
  ends : number = value.size - value.spacingBelow / 2 ∨ number = value.size + value.spacing / 2 →
    2 ∣ value.mantissa

theorem Covers.of_between {first second number : ℚ} (coversFirst : value.Covers first)
    (coversSecond : value.Covers second) (low : first ≤ number) (high : number ≤ second) :
    value.Covers number where
  low := coversFirst.low.trans low
  high := high.trans coversSecond.high
  ends := by
    rintro (same | same)
    · exact coversFirst.ends (.inl (le_antisymm (low.trans same.le) coversFirst.low))
    · exact coversSecond.ends (.inr (le_antisymm coversSecond.high (same.ge.trans high)))

theorem covers_of_lt {number : ℚ} (low : value.size - value.spacingBelow / 2 < number)
    (high : number < value.size + value.spacing / 2) : value.Covers number where
  low := low.le
  high := high.le
  ends atEnd := atEnd.elim (fun same => absurd same low.ne') fun same => absurd same high.ne

theorem covers_size (value : Binary) : value.Covers value.size :=
  covers_of_lt (by linarith [value.spacingBelow_pos]) (by linarith [value.spacing_pos])

theorem mantissa_pos_of_lt_size {number : ℚ} (nonneg : 0 ≤ number)
    (smaller : number < value.size) : 0 < value.mantissa := by
  apply Nat.pos_of_ne_zero
  intro zero
  rw [size_eq, zero, Nat.cast_zero, zero_mul] at smaller
  exact absurd nonneg (not_le_of_gt smaller)

theorem IsCanonical.abs_le_of_covers (canonical : value.IsCanonical) {number other : ℚ}
    (covers : value.Covers number) (isBinary : IsBinary other) :
    |number - value.size| ≤ |number - other| := by
  have low := covers.low
  have high := covers.high
  have above := value.spacing_pos
  have below := value.spacingBelow_pos
  rcases lt_trichotomy other value.size with smaller | rfl | greater
  · have room := canonical.le_sub_spacingBelow isBinary smaller
    rw [abs_of_nonneg (by linarith : 0 ≤ number - other)]
    exact abs_le.mpr ⟨by linarith, by linarith⟩
  · exact le_rfl
  · have room := canonical.add_spacing_le isBinary greater
    rw [abs_sub_comm number other, abs_of_nonneg (by linarith : 0 ≤ other - number)]
    exact abs_le.mpr ⟨by linarith, by linarith⟩

theorem IsCanonical.even_of_covers (canonical : value.IsCanonical) {number other : ℚ}
    (covers : value.Covers number) (isBinary : IsBinary other) (different : other ≠ value.size)
    (asNear : |number - other| = |number - value.size|) : 2 ∣ value.mantissa := by
  have low := covers.low
  have high := covers.high
  have above := value.spacing_pos
  have below := value.spacingBelow_pos
  apply covers.ends
  rcases lt_or_gt_of_ne different with smaller | greater
  · have room := canonical.le_sub_spacingBelow isBinary smaller
    rw [abs_of_nonneg (by linarith : 0 ≤ number - other)] at asNear
    rcases abs_cases (number - value.size) with ⟨same, -⟩ | ⟨same, -⟩
    · exact absurd (by linarith) different
    · exact .inl (by linarith)
  · have room := canonical.add_spacing_le isBinary greater
    rw [abs_sub_comm number other, abs_of_nonneg (by linarith : 0 ≤ other - number)] at asNear
    rcases abs_cases (number - value.size) with ⟨same, -⟩ | ⟨same, -⟩
    · exact .inr (by linarith)
    · exact absurd (by linarith) different

/-- A number is covered if no other number with a place is nearer, and none is just as near unless
the mantissa is even. -/
theorem IsCanonical.covers_of_nearest (canonical : value.IsCanonical) {number : ℚ}
    (nonneg : 0 ≤ number)
    (nearest : ∀ other, IsBinary other → |number - value.size| ≤ |number - other|)
    (even : ∀ other, IsBinary other → other ≠ value.size →
      |number - other| = |number - value.size| → 2 ∣ value.mantissa) :
    value.Covers number := by
  have above := value.spacing_pos
  have below := value.spacingBelow_pos
  refine ⟨?_, ?_, ?_⟩
  · by_contra outside
    have positive := mantissa_pos_of_lt_size nonneg (by linarith)
    have near := nearest _ (canonical.isBinary_sub_spacingBelow positive)
    rw [abs_sub_comm, abs_of_nonneg (by linarith : 0 ≤ value.size - number)] at near
    rcases abs_cases (number - (value.size - value.spacingBelow)) with ⟨same, -⟩ | ⟨same, -⟩
    · linarith
    · linarith
  · by_contra outside
    have near := nearest _ canonical.isBinary_add_spacing
    rw [abs_of_nonneg (by linarith : 0 ≤ number - value.size)] at near
    rcases abs_cases (number - (value.size + value.spacing)) with ⟨same, -⟩ | ⟨same, -⟩
    · linarith
    · linarith
  · rintro (rfl | rfl)
    · have smaller : value.size - value.spacingBelow / 2 < value.size := by linarith
      have positive := mantissa_pos_of_lt_size nonneg smaller
      apply even _ (canonical.isBinary_sub_spacingBelow positive) (by linarith)
      rw [abs_of_nonneg (by linarith), abs_of_nonpos (by linarith)]
      ring
    · apply even _ canonical.isBinary_add_spacing (by linarith)
      rw [abs_of_nonpos (by linarith), abs_of_nonneg (by linarith)]
      ring

/-- The numbers that are covered are those that are rounded to the double. -/
theorem covers_ofFloat_iff {number : ℚ} (nonneg : 0 ≤ number) (value : Float) :
    (ofFloat value).Covers number ↔ RoundsTo number value := by
  have canonical := isCanonical_ofFloat value
  constructor
  · intro covers
    refine ⟨fun other isBinary => ?_, fun other isBinary different asNear => ?_⟩
    · rw [← size_ofFloat]
      exact canonical.abs_le_of_covers covers isBinary
    · rw [← size_ofFloat] at different asNear
      rw [← mantissa_ofFloat_even_iff]
      exact canonical.even_of_covers covers isBinary different asNear
  · rintro ⟨nearest, even⟩
    rw [← size_ofFloat] at nearest even
    rw [← mantissa_ofFloat_even_iff] at even
    exact canonical.covers_of_nearest nonneg nearest even

end Binary

/-!
## Exact comparison
-/

/-- Multiplied by these powers, a number of tens and one of twos are whole. -/
def commonFactor (ten two : ℤ) : ℚ :=
  10 ^ (-ten).toNat * 2 ^ (-two).toNat

theorem commonFactor_pos (ten two : ℤ) : 0 < commonFactor ten two := by
  unfold commonFactor
  positivity

theorem zpow_mul_pow_toNat {base : ℚ} (positive : 0 < base) (exponent : ℤ) :
    base ^ exponent * base ^ (-exponent).toNat = base ^ exponent.toNat := by
  rw [← zpow_natCast base (-exponent).toNat, ← zpow_natCast base exponent.toNat,
    ← zpow_add₀ positive.ne']
  congr 1
  omega

theorem tens_mul_commonFactor (first : ℕ) (ten two : ℤ) :
    (first * 10 ^ ten) * commonFactor ten two =
      (first * 10 ^ ten.toNat * 2 ^ (-two).toNat : ℕ) := by
  have tens := zpow_mul_pow_toNat (by norm_num : (0 : ℚ) < 10) ten
  push_cast
  rw [← tens]
  unfold commonFactor
  ring

theorem twos_mul_commonFactor (second : ℕ) (ten two : ℤ) :
    (second * 2 ^ two) * commonFactor ten two =
      (second * 2 ^ two.toNat * 10 ^ (-ten).toNat : ℕ) := by
  have twos := zpow_mul_pow_toNat (by norm_num : (0 : ℚ) < 2) two
  push_cast
  rw [← twos]
  unfold commonFactor
  ring

theorem compareScaled_eq (first : ℕ) (ten : ℤ) (second : ℕ) (two : ℤ) :
    compareScaled first ten second two =
      compare ((first : ℚ) * 10 ^ ten) (second * 2 ^ two) := by
  have positive := commonFactor_pos ten two
  have tens := tens_mul_commonFactor first ten two
  have twos := twos_mul_commonFactor second ten two
  unfold compareScaled
  simp only [Nat.pow_eq]
  rcases lt_trichotomy ((first : ℚ) * 10 ^ ten) (second * 2 ^ two) with less | same | more
  · rw [compare_lt_iff_lt.mpr less, compare_lt_iff_lt]
    have scaled := mul_lt_mul_of_pos_right less positive
    rw [tens, twos] at scaled
    exact_mod_cast scaled
  · rw [compare_eq_iff_eq.mpr same, compare_eq_iff_eq]
    have scaled := congrArg (· * commonFactor ten two) same
    rw [tens, twos] at scaled
    exact_mod_cast scaled
  · rw [compare_gt_iff_gt.mpr more, compare_gt_iff_gt]
    have scaled := mul_lt_mul_of_pos_right more positive
    rw [tens, twos] at scaled
    exact_mod_cast scaled

def Decimal.size (decimal : Decimal) : ℚ :=
  decimal.digits * 10 ^ decimal.exponent

theorem Decimal.size_nonneg (decimal : Decimal) : 0 ≤ decimal.size := by
  unfold size
  positivity

namespace Binary

variable {value : Binary}

theorem highEnd_eq (value : Binary) :
    ((4 * value.mantissa + 2 : ℕ) : ℚ) * 2 ^ (value.exponent - 2) =
      value.size + value.spacing / 2 := by
  rw [size_eq, spacing, zpow_sub₀ (by norm_num)]
  push_cast
  ring

theorem lowEnd_eq (positive : 0 < value.mantissa) :
    ((4 * value.mantissa - (if value.narrowBelow then 1 else 2) : ℕ) : ℚ) *
        2 ^ (value.exponent - 2) = value.size - value.spacingBelow / 2 := by
  rw [size_eq, spacingBelow, spacing, zpow_sub₀ (by norm_num)]
  split
  all_goals
    rw [Nat.cast_sub (by omega)]
    push_cast
    ring

theorem covers_iff {number : ℚ} :
    value.Covers number ↔
      (value.size - value.spacingBelow / 2 < number ∨
          2 ∣ value.mantissa ∧ number = value.size - value.spacingBelow / 2) ∧
        (number < value.size + value.spacing / 2 ∨
          2 ∣ value.mantissa ∧ number = value.size + value.spacing / 2) := by
  constructor
  · rintro ⟨low, high, ends⟩
    refine ⟨low.lt_or_eq.imp_right fun same => ?_, high.lt_or_eq.imp_right fun same => ?_⟩
    · exact ⟨ends (.inl same.symm), same.symm⟩
    · exact ⟨ends (.inr same), same⟩
  · rintro ⟨low, high⟩
    refine ⟨?_, ?_, ?_⟩
    · exact low.elim le_of_lt fun atEnd => atEnd.2.ge
    · exact high.elim le_of_lt fun atEnd => atEnd.2.le
    · rintro (same | same)
      · exact (low.resolve_left same.not_gt).1
      · exact (high.resolve_left same.not_lt).1

/-- The low end of what is covered is compared as zero where it is less, which makes no difference
to decimals. -/
theorem lowEnd_iff {number : ℚ} (nonneg : 0 ≤ number) :
    ((4 * value.mantissa - (if value.narrowBelow then 1 else 2) : ℕ) : ℚ) *
          2 ^ (value.exponent - 2) < number ∨
        2 ∣ value.mantissa ∧
          number = ((4 * value.mantissa - (if value.narrowBelow then 1 else 2) : ℕ) : ℚ) *
            2 ^ (value.exponent - 2) ↔
      value.size - value.spacingBelow / 2 < number ∨
        2 ∣ value.mantissa ∧ number = value.size - value.spacingBelow / 2 := by
  rcases Nat.eq_zero_or_pos value.mantissa with zero | positive
  · have below := value.spacingBelow_pos
    have start : value.size - value.spacingBelow / 2 < number := by
      rw [size_eq, zero, Nat.cast_zero, zero_mul]
      linarith
    have reached : 0 < number ∨ number = 0 := nonneg.lt_or_eq.imp_right Eq.symm
    simp [zero, start, reached]
  · rw [lowEnd_eq positive]

/-- Comparing a decimal with the ends of what a double covers tells whether it is covered. -/
theorem isNearest_iff {decimal : Decimal} :
    value.isNearest decimal = true ↔ value.Covers decimal.size := by
  unfold isNearest
  simp only [compareScaled_eq, highEnd_eq, Bool.and_eq_true, Bool.or_eq_true, beq_iff_eq,
    compare_gt_iff_gt, compare_eq_iff_eq, compare_lt_iff_lt, ← Nat.dvd_iff_mod_eq_zero]
  rw [covers_iff, ← lowEnd_iff decimal.size_nonneg]
  rfl

end Binary

end Cohort.Text
