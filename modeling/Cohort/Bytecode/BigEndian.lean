/-!
Numbers as bytes, most significant byte first.
-/

namespace Cohort

/-- The last `width` bytes of a number. -/
def bigEndian : (width : Nat) → (number : Nat) → List UInt8
  | 0, _ => []
  | width + 1, number => UInt8.ofNat (number / Nat.pow 256 width) :: bigEndian width number

/-- The number that bytes stand for. -/
def ofBigEndian (bytes : List UInt8) : Nat :=
  bytes.foldl (fun number byte => number * 256 + byte.toNat) 0

@[simp]
theorem length_bigEndian (width number : Nat) : (bigEndian width number).length = width := by
  induction width with
  | zero => rfl
  | succ width inductionHypothesis => simp [bigEndian, inductionHypothesis]

@[simp]
theorem ofBigEndian_nil : ofBigEndian [] = 0 :=
  rfl

theorem ofBigEndian_cons (byte : UInt8) (bytes : List UInt8) :
    ofBigEndian (byte :: bytes) = byte.toNat * Nat.pow 256 bytes.length + ofBigEndian bytes := by
  have shifted : ∀ (bytes : List UInt8) (number : Nat),
      bytes.foldl (fun number byte => number * 256 + byte.toNat) number =
        number * 256 ^ bytes.length + ofBigEndian bytes := by
    intro bytes
    induction bytes with
    | nil => simp
    | cons byte bytes inductionHypothesis =>
        intro number
        unfold ofBigEndian
        rw [List.foldl_cons, List.foldl_cons, inductionHypothesis, inductionHypothesis,
          List.length_cons, Nat.pow_succ, Nat.add_mul, Nat.mul_assoc, Nat.mul_comm 256]
        simp [Nat.add_assoc]
  unfold ofBigEndian
  rw [List.foldl_cons, shifted]
  simp [ofBigEndian]

theorem ofBigEndian_lt (bytes : List UInt8) : ofBigEndian bytes < Nat.pow 256 bytes.length := by
  induction bytes with
  | nil => simp
  | cons byte bytes inductionHypothesis =>
      have small : byte.toNat ≤ 255 := Nat.le_of_lt_succ byte.toNat_lt
      have scaled := Nat.mul_le_mul_right (256 ^ bytes.length) small
      rw [ofBigEndian_cons, List.length_cons]
      simp only [Nat.pow_eq, Nat.pow_succ] at inductionHypothesis ⊢
      omega

theorem ofBigEndian_bigEndian (width number : Nat) :
    ofBigEndian (bigEndian width number) = number % Nat.pow 256 width := by
  induction width with
  | zero => simp [bigEndian, Nat.mod_one]
  | succ width inductionHypothesis =>
      rw [bigEndian, ofBigEndian_cons, inductionHypothesis, length_bigEndian, UInt8.toNat_ofNat']
      simp only [Nat.pow_eq, Nat.pow_succ 256, Nat.mod_mul]
      rw [Nat.mul_comm, Nat.add_comm]

/-- Bytes are the only way to write the number that they stand for in their width. -/
theorem bigEndian_ofBigEndian (bytes : List UInt8) :
    bigEndian bytes.length (ofBigEndian bytes) = bytes := by
  have congruent : ∀ (width high low : Nat),
      bigEndian width (high * 256 ^ width + low) = bigEndian width low := by
    intro width
    induction width with
    | zero => intros; rfl
    | succ width inductionHypothesis =>
        intro high low
        have split : high * 256 ^ (width + 1) = high * 256 * 256 ^ width := by
          rw [Nat.pow_succ, Nat.mul_assoc, Nat.mul_comm 256]
        rw [bigEndian, bigEndian, split, inductionHypothesis, Nat.pow_eq]
        have head : (high * 256 * 256 ^ width + low) / 256 ^ width =
            low / 256 ^ width + high * 256 := by
          rw [Nat.add_comm, Nat.add_mul_div_right _ _ (Nat.pow_pos (by decide))]
        rw [head]
        congr 1
        apply UInt8.toNat_inj.mp
        simp only [UInt8.toNat_ofNat']
        omega
  induction bytes with
  | nil => rfl
  | cons byte bytes inductionHypothesis =>
      rw [List.length_cons, bigEndian, ofBigEndian_cons, Nat.pow_eq, congruent,
        inductionHypothesis]
      have head : (byte.toNat * 256 ^ bytes.length + ofBigEndian bytes) / 256 ^ bytes.length =
          byte.toNat := by
        have small : ofBigEndian bytes < 256 ^ bytes.length := ofBigEndian_lt bytes
        rw [Nat.add_comm, Nat.add_mul_div_right _ _ (Nat.pow_pos (by decide)),
          Nat.div_eq_of_lt small, Nat.zero_add]
      rw [head, UInt8.ofNat_toNat]

end Cohort
