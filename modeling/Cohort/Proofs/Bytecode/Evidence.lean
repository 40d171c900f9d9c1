import Cohort.Proofs.Bytecode.Cutting
import Mathlib.Data.List.Basic

/-!
# Evidence of faults

A fault that is reported with an offset is found in the image at that offset, and it is the fault
of every image of the same length that agrees with this one up to there.
-/

namespace Cohort

namespace Program

/-- Whether an image has a fault because of its length and of the bytes in front of a place. -/
def FailsBy (limits : Limits) (image : List UInt8) (reach : Nat) (problem : LoadError) : Prop :=
  reach ≤ image.length ∧
    ∀ other, other.length = image.length → other.take reach = image.take reach →
      load limits other = .error problem

/-- What an image shows of a fault that loading it reports. -/
def Evidence (limits : Limits) (image : List UInt8) : LoadError → Prop
  | .unknownOpcode byte offset =>
      6 ≤ offset ∧ image[offset]? = some byte ∧ ¬(1 ≤ byte ∧ byte ≤ 4) ∧
        FailsBy limits image (offset + 1) (.unknownOpcode byte offset)
  | .unknownValueType byte offset =>
      6 ≤ offset ∧ image[offset]? = some byte ∧ ¬byte ≤ 2 ∧
        FailsBy limits image (offset + 1) (.unknownValueType byte offset)
  | .invalidText offset =>
      ∃ count, 8 ≤ offset ∧ ofBigEndian ((image.drop (offset - 2)).take 2) = count ∧
        (∃ character ∈ (image.drop offset).take count, 128 ≤ character) ∧
        FailsBy limits image (offset + count) (.invalidText offset)
  | .truncated offset field =>
      (∃ needed, field.Takes (image.take offset) needed ∧ image.length < offset + needed) ∧
        FailsBy limits image offset (.truncated offset field)
  | .lengthMismatch declared actual =>
      declared = ofBigEndian ((image.drop 2).take 4) ∧ actual = image.length - 6 ∧
        declared ≠ actual ∧ FailsBy limits image 6 (.lengthMismatch declared actual)
  | _ => True

theorem failsBy_append {limits : Limits} {start left : List UInt8} {problem : LoadError}
    (same : ∀ more, more.length = left.length → load limits (start ++ more) = .error problem) :
    FailsBy limits (start ++ left) start.length problem := by
  refine ⟨by simp, fun other length agree => ?_⟩
  rw [List.take_left] at agree
  rw [← List.take_append_drop start.length other, agree]
  apply same
  rw [List.length_drop, length, List.length_append, Nat.add_sub_cancel_left]

theorem evidence_of_shownBy {limits : Limits} {header used left : List UInt8} {problem : LoadError}
    (length : header.length = 6) (shown : problem.ShownBy 6 used left.length)
    (fails : FailsBy limits (header ++ used ++ left) (header ++ used).length problem) :
    Evidence limits (header ++ used ++ left) problem := by
  rw [List.length_append, length] at fails
  cases problem with
  | unknownOpcode byte offset =>
      obtain ⟨unknown, earlier, rfl, rfl⟩ := shown
      refine ⟨Nat.le_add_right _ _, ?_, unknown, ?_⟩
      · simp [length]
      · simpa [Nat.add_assoc] using fails
  | unknownValueType byte offset =>
      obtain ⟨unknown, earlier, rfl, rfl⟩ := shown
      refine ⟨Nat.le_add_right _ _, ?_, unknown, ?_⟩
      · simp [length]
      · simpa [Nat.add_assoc] using fails
  | invalidText offset =>
      obtain ⟨earlier, characters, rfl, small, foreign, rfl⟩ := shown
      have split : header ++ (earlier ++ (bigEndian 2 characters.length ++ characters)) ++ left =
          (header ++ earlier) ++ (bigEndian 2 characters.length ++ (characters ++ left)) := by
        simp
      have start : (header ++ earlier).length = 6 + earlier.length := by simp [length]
      rw [split] at fails ⊢
      refine ⟨characters.length, by omega, ?_, ?_, by simpa [Nat.add_assoc] using fails⟩
      · rw [Nat.add_sub_cancel, List.drop_left' start, List.take_left' (length_bigEndian _ _),
          ofBigEndian_bigEndian, Nat.mod_eq_of_lt small]
      · rwa [← List.drop_drop, List.drop_left' start, List.drop_left' (length_bigEndian _ _),
          List.take_left]
  | truncated offset field =>
      obtain ⟨rfl, needed, takes, few⟩ := shown
      refine ⟨⟨needed, ?_, ?_⟩, fails⟩
      · rw [← length, ← List.length_append, List.take_left]
        exact takes.prepend header
      · simp only [List.length_append, length]
        omega
  | lengthMismatch declared actual => exact False.elim shown
  | _ => trivial

/-- What is reported of a body is shown by the body. -/
theorem evidence_of_body {limits : Limits} {version : UInt16} {body : List UInt8}
    {problem : LoadError} (headed : Headed limits version body)
    (failed : Reader.body limits version ⟨body, 6⟩ = .error problem) :
    Evidence limits (imageOf version body) problem := by
  obtain ⟨used, left, rfl, shown, same⟩ :=
    (Reader.traceable_body limits version).traces _ _ failed
  have placed : ∀ more, more.length = left.length →
      imageOf version (used ++ more) =
        bigEndian 2 version.toNat ++ bigEndian 4 (used ++ left).length ++ used ++ more := by
    intro more length
    simp [imageOf, length]
  have length : (bigEndian 2 version.toNat ++ bigEndian 4 (used ++ left).length).length = 6 := by
    simp
  rw [placed left rfl]
  apply evidence_of_shownBy length shown
  apply failsBy_append
  intro more sameLength
  rw [← placed more sameLength]
  apply load_of_body_eq_error ⟨headed.supported, ?_⟩ (same more sameLength)
  have short := headed.short
  rw [List.length_append] at short ⊢
  rwa [sameLength]

theorem exists_version {image : List UInt8} (long : 2 ≤ image.length) :
    ∃ (version : UInt16) (found : List UInt8), image = bigEndian 2 version.toNat ++ found := by
  obtain ⟨number, found, small, rfl⟩ := Reader.exists_bigEndian long
  refine ⟨UInt16.ofNat number, found, ?_⟩
  rw [UInt16.toNat_ofNat', Nat.mod_eq_of_lt small]

/-- An image whose version or length is not complete is truncated there. -/
theorem evidence_of_short {limits : Limits} {image : List UInt8} {problem : LoadError}
    (short : image.length < 6) (failed : load limits image = .error problem) :
    Evidence limits image problem := by
  by_cases noVersion : image.length < 2
  · rw [load_of_no_version limits noVersion] at failed
    cases failed
    refine ⟨⟨2, .whole .version, by omega⟩, Nat.zero_le _, fun other length _ => ?_⟩
    exact load_of_no_version limits (length.symm ▸ noVersion)
  · obtain ⟨version, found, rfl⟩ := exists_version (Nat.le_of_not_lt noVersion)
    rw [List.length_append, length_bigEndian] at short
    have noLength : ∀ more : List UInt8, more.length = found.length → more.length < 4 := by
      intro more length
      omega
    rw [load_of_no_length limits version (noLength found rfl)] at failed
    by_cases tooNew : limits.supportedVersion < version
    · rw [if_pos tooNew] at failed
      cases failed
      trivial
    · rw [if_neg tooNew] at failed
      cases failed
      refine ⟨⟨4, .whole .length, ?_⟩, ?_⟩
      · rw [List.length_append, length_bigEndian]
        omega
      · apply failsBy_append
        intro more length
        rw [load_of_no_length limits version (noLength more length), if_neg tooNew]

/-- A length that is not that of the body is found in front of it. -/
theorem evidence_of_lengthMismatch {limits : Limits} {version : UInt16} {declared : Nat}
    {body : List UInt8} (supported : version ≤ limits.supportedVersion)
    (small : declared < 4294967296) (wrong : declared ≠ body.length) :
    Evidence limits (bigEndian 2 version.toNat ++ (bigEndian 4 declared ++ body))
      (.lengthMismatch declared body.length) := by
  refine ⟨?_, ?_, wrong, ?_⟩
  · rw [List.drop_left' (length_bigEndian _ _), List.take_left' (length_bigEndian _ _),
      ofBigEndian_bigEndian, Nat.mod_eq_of_lt small]
  · simp only [List.length_append, length_bigEndian]
    omega
  · rw [← List.append_assoc]
    apply failsBy_append
    intro more length
    rw [List.append_assoc, load_header, if_neg (UInt16.not_lt.mpr supported),
      Nat.mod_eq_of_lt small, length, if_pos wrong]

/-- What is reported of an image is found in it: a fault with an offset at that offset, a wrong
length in front of the body.  And it is reported of every image of the same length that agrees with
this one up to there. -/
theorem evidence_of_load (limits : Limits) (image : List UInt8) (problem : LoadError)
    (failed : load limits image = .error problem) : Evidence limits image problem := by
  by_cases short : image.length < 6
  · exact evidence_of_short short failed
  have hasVersion : 2 ≤ image.length := by omega
  obtain ⟨version, found, rfl⟩ := exists_version hasVersion
  rw [List.length_append, length_bigEndian] at short
  have hasLength : 4 ≤ found.length := by omega
  obtain ⟨declared, body, small, rfl⟩ := Reader.exists_bigEndian hasLength
  have outcome := failed
  rw [load_header, Nat.mod_eq_of_lt small] at outcome
  by_cases tooNew : limits.supportedVersion < version
  · rw [if_pos tooNew] at outcome
    cases outcome
    trivial
  have supported := UInt16.not_lt.mp tooNew
  by_cases wrong : declared ≠ body.length
  · rw [if_neg tooNew, if_pos wrong] at outcome
    cases outcome
    exact evidence_of_lengthMismatch supported small wrong
  · obtain rfl := Decidable.not_not.mp wrong
    have headed : Headed limits version body := ⟨supported, small⟩
    change load limits (imageOf version body) = .error problem at failed
    change Evidence limits (imageOf version body) problem
    cases read : Reader.body limits version ⟨body, 6⟩ with
    | error fault =>
        rw [load_of_body_eq_error headed read] at failed
        cases failed
        exact evidence_of_body headed read
    | ok step =>
        rw [load_of_body_eq_ok headed read] at failed
        by_cases unread : 0 < step.2.rest.length
        · rw [if_pos unread] at failed
          cases failed
          trivial
        · rw [if_neg unread] at failed
          contradiction

/-- Images with a fault each: an opcode and a type that stand for nothing, a name that is not
ASCII, one that is not complete, and a length that is not that of the body. -/
def faultySamples : List (List UInt8 × LoadError) :=
  [(imageOf 1 [0, 1, 103, 0, 0, 1, 0, 1, 9], .unknownOpcode 9 14),
    (imageOf 1 [0, 1, 103, 0, 1, 7], .unknownValueType 7 11),
    (imageOf 1 [0, 2, 103, 200, 0, 0], .invalidText 8),
    (imageOf 1 [0, 5, 103], .truncated 8 .scriptName),
    ([0, 1, 0, 0, 0, 9, 1], .lengthMismatch 9 1)]

theorem evidence_faultySamples :
    faultySamples.Forall fun (image, problem) =>
      load ⟨2, 1⟩ image = .error problem ∧ Evidence ⟨2, 1⟩ image problem := by
  have failed : ∀ sample ∈ faultySamples, load ⟨2, 1⟩ sample.1 = .error sample.2 := by
    simp only [faultySamples, List.forall_mem_cons]
    exact ⟨rfl, rfl, rfl, rfl, rfl, List.forall_mem_nil _⟩
  rw [List.forall_iff_forall_mem]
  intro sample listed
  have problem := failed sample listed
  exact ⟨problem, evidence_of_load ⟨2, 1⟩ sample.1 sample.2 problem⟩

end Program

end Cohort
