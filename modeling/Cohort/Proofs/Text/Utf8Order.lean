import Mathlib.Data.String.Basic

/-!
# The order of texts and of their bytes

Texts are ordered character by character.  Their bytes in UTF-8 come in the same order, since the
bytes of a character begin with its highest digits.
-/

namespace Cohort.Text

/-- The bytes of a text in UTF-8. -/
def utf8 (text : String) : List UInt8 :=
  text.toUTF8.data.toList

theorem utf8_eq_flatMap (text : String) :
    utf8 text = text.toList.flatMap String.utf8EncodeChar := by
  conv_lhs => rw [← String.ofList_toList (s := text)]
  exact List.toList_data_toByteArray

theorem ofNat_cons_lt_iff {first second : Nat} (firstByte : first < 256) (secondByte : second < 256)
    {rest otherRest : List UInt8} :
    UInt8.ofNat first :: rest < UInt8.ofNat second :: otherRest ↔
      first < second ∨ first = second ∧ rest < otherRest := by
  rw [List.cons_lt_cons_iff, UInt8.lt_iff_toNat_lt, ← UInt8.toNat_inj,
    UInt8.toNat_ofNat_of_lt' firstByte, UInt8.toNat_ofNat_of_lt' secondByte]

theorem toNat_val_lt (character : Char) : character.val.toNat < 1114112 := by
  have valid := character.valid
  unfold UInt32.isValidChar Nat.isValidChar at valid
  omega

/-- The bytes of a character are before those of any later character, whatever follows them. -/
theorem utf8EncodeChar_append_lt {first second : Char} (less : first < second)
    (rest otherRest : List UInt8) :
    String.utf8EncodeChar first ++ rest < String.utf8EncodeChar second ++ otherRest := by
  have codes : first.val.toNat < second.val.toNat := less
  have bound := toNat_val_lt second
  have digits : ∀ code : Nat,
      code / 4096 = code / 64 / 64 ∧ code / 262144 = code / 64 / 64 / 64 := by
    omega
  unfold String.utf8EncodeChar
  simp only [digits]
  -- Either one has fewer bytes and then a smaller first byte, or they differ in a digit first.
  split_ifs <;>
    simp (disch := omega) only [List.cons_append, List.nil_append, ofNat_cons_lt_iff] <;> omega

theorem flatMap_utf8EncodeChar_lt {first second : List Char} (less : first < second) :
    first.flatMap String.utf8EncodeChar < second.flatMap String.utf8EncodeChar := by
  induction less with
  | @nil character rest =>
      obtain ⟨byte, later, bytes⟩ :=
        List.exists_cons_of_ne_nil (@String.utf8EncodeChar_ne_nil character)
      rw [List.flatMap_nil, List.flatMap_cons, bytes]
      exact List.nil_lt_cons _ _
  | rel less => exact utf8EncodeChar_append_lt less _ _
  | cons _ inductionHypothesis => exact List.append_left_lt inductionHypothesis

/-- One text is before another in the order of names if its bytes are. -/
theorem utf8_lt_iff {first second : String} : utf8 first < utf8 second ↔ first < second := by
  have forward : ∀ {first second : String}, first < second → utf8 first < utf8 second := by
    intro first second less
    rw [utf8_eq_flatMap, utf8_eq_flatMap]
    exact flatMap_utf8EncodeChar_lt (String.lt_iff_toList_lt.mp less)
  refine ⟨fun bytes => ?_, forward⟩
  rcases lt_trichotomy first second with less | rfl | greater
  · exact less
  · exact absurd bytes (List.lt_irrefl _)
  · exact absurd bytes (List.lt_asymm (forward greater))

theorem compare_eq_lt_iff {first second : String} :
    compare first second = .lt ↔ utf8 first < utf8 second :=
  compare_lt_iff_lt.trans utf8_lt_iff.symm

end Cohort.Text
