import Cohort.Proofs.Bytecode.Tracing

/-!
# Cut and continued images

Bodies delimit themselves: an accepted one that is cut off anywhere is truncated, one that is
continued leaves the continuation unread, and whatever is reported as unread can be dropped.
-/

namespace Cohort

/-- A body behind its version and its length. -/
def imageOf (version : UInt16) (body : List UInt8) : List UInt8 :=
  bigEndian 2 version.toNat ++ (bigEndian 4 body.length ++ body)

namespace Program

theorem ofNat_toNat_mod (version : UInt16) :
    UInt16.ofNat (version.toNat % Nat.pow 256 2) = version := by
  rw [Nat.mod_eq_of_lt version.toNat_lt, UInt16.ofNat_toNat]

theorem load_header (limits : Limits) (version : UInt16) (declared : Nat) (body : List UInt8) :
    load limits (bigEndian 2 version.toNat ++ (bigEndian 4 declared ++ body)) =
      if limits.supportedVersion < version then
        .error (.unsupportedVersion version limits.supportedVersion)
      else if declared % 4294967296 ≠ body.length then
        .error (.lengthMismatch (declared % 4294967296) body.length)
      else
        (Reader.body limits version >>= Reader.finish).run' ⟨body, 6⟩ := by
  change Except.map Prod.fst (Reader.program limits _) = _
  rw [Reader.program, Reader.bind_of_eq_ok (Reader.number_bigEndian ..), ofNat_toNat_mod]
  by_cases tooNew : limits.supportedVersion < version
  · rw [if_pos tooNew, if_pos tooNew]
    rfl
  · rw [if_neg tooNew, if_neg tooNew]
    dsimp only
    rw [Reader.bind_of_eq_ok (Reader.number_bigEndian ..),
      Reader.bind_of_eq_ok (Reader.get_eq_ok_iff.mpr ⟨rfl, rfl⟩)]
    by_cases mismatch : declared % 4294967296 ≠ body.length
    · rw [if_pos mismatch, if_pos mismatch]
      rfl
    · rw [if_neg mismatch, if_neg mismatch, Reader.body_finish]
      rfl

/-- Whether a body of this length can stand behind this version at all. -/
structure Headed (limits : Limits) (version : UInt16) (body : List UInt8) : Prop where
  supported : version ≤ limits.supportedVersion
  short : body.length < 4294967296

theorem load_of_headed {limits : Limits} {version : UInt16} {body : List UInt8}
    (headed : Headed limits version body) :
    load limits (imageOf version body) =
      (Reader.body limits version >>= Reader.finish).run' ⟨body, 6⟩ := by
  rw [imageOf, load_header, if_neg (UInt16.not_lt.mpr headed.supported),
    if_neg (not_not_intro (Nat.mod_eq_of_lt headed.short))]

theorem load_of_body_eq_error {limits : Limits} {version : UInt16} {body : List UInt8}
    {problem : LoadError} (headed : Headed limits version body)
    (failed : Reader.body limits version ⟨body, 6⟩ = .error problem) :
    load limits (imageOf version body) = .error problem := by
  have stopped : (Reader.body limits version >>= Reader.finish) ⟨body, 6⟩ = .error problem :=
    Reader.bind_eq_error_iff.mpr (.inl failed)
  rw [load_of_headed headed]
  change Except.map Prod.fst ((Reader.body limits version >>= Reader.finish) ⟨body, 6⟩) = _
  rw [stopped]
  rfl

theorem load_of_body_eq_ok {limits : Limits} {version : UInt16} {body : List UInt8}
    {program : Program} {after : Cursor} (headed : Headed limits version body)
    (read : Reader.body limits version ⟨body, 6⟩ = .ok (program, after)) :
    load limits (imageOf version body) =
      if 0 < after.rest.length then .error (.trailingBytes after.rest.length) else .ok program := by
  rw [load_of_headed headed]
  change Except.map Prod.fst ((Reader.body limits version >>= Reader.finish) ⟨body, 6⟩) = _
  rw [Reader.bind_of_eq_ok read, Reader.finish,
    Reader.bind_of_eq_ok (Reader.get_eq_ok_iff.mpr ⟨rfl, rfl⟩)]
  by_cases unread : 0 < after.rest.length
  · rw [if_pos unread, if_pos unread]
    rfl
  · rw [if_neg unread, if_neg unread]
    rfl

/-- Whether loading came to the end of the body: it was accepted, or something is left behind it. -/
def Ends (outcome : Except LoadError Program) : Prop :=
  ∀ problem, outcome = .error problem → ∃ count, problem = .trailingBytes count

theorem headed_of_load {limits : Limits} {version : UInt16} {body : List UInt8}
    {outcome : Except LoadError Program} (loaded : load limits (imageOf version body) = outcome)
    (ends : Ends outcome) : Headed limits version body := by
  rw [imageOf, load_header] at loaded
  by_cases tooNew : limits.supportedVersion < version
  · rw [if_pos tooNew] at loaded
    obtain ⟨count, impossible⟩ := ends _ loaded.symm
    contradiction
  · rw [if_neg tooNew] at loaded
    by_cases mismatch : body.length % 4294967296 ≠ body.length
    · rw [if_pos mismatch] at loaded
      obtain ⟨count, impossible⟩ := ends _ loaded.symm
      contradiction
    · have same := Decidable.not_not.mp mismatch
      exact ⟨UInt16.not_lt.mp tooNew, same ▸ Nat.mod_lt _ (by decide)⟩

theorem body_of_load {limits : Limits} {version : UInt16} {body : List UInt8}
    {outcome : Except LoadError Program} (loaded : load limits (imageOf version body) = outcome)
    (ends : Ends outcome) :
    Headed limits version body ∧
      ∃ program after, Reader.body limits version ⟨body, 6⟩ = .ok (program, after) ∧
        outcome = if 0 < after.rest.length then .error (.trailingBytes after.rest.length)
          else .ok program := by
  have headed := headed_of_load loaded ends
  refine ⟨headed, ?_⟩
  cases read : Reader.body limits version ⟨body, 6⟩ with
  | error problem =>
      rw [load_of_body_eq_error headed read] at loaded
      obtain ⟨count, rfl⟩ := ends problem loaded.symm
      -- The reader of the body does not look for what is left behind it.
      rcases (Reader.delimited_body limits version).fails _ _ read with ⟨offset, field, other, -⟩ |
        ⟨settled, -⟩
      · contradiction
      · exact False.elim settled
  | ok step =>
      obtain ⟨program, after⟩ := step
      rw [load_of_body_eq_ok headed read] at loaded
      exact ⟨program, after, rfl, loaded.symm⟩

theorem body_of_load_eq_ok {limits : Limits} {version : UInt16} {body : List UInt8}
    {program : Program} (loaded : load limits (imageOf version body) = .ok program) :
    Headed limits version body ∧
      ∃ after, Reader.body limits version ⟨body, 6⟩ = .ok (program, after) ∧ after.rest = [] := by
  have ends : Ends (.ok program) := fun problem failed => nomatch failed
  obtain ⟨headed, found, after, read, outcome⟩ := body_of_load loaded ends
  by_cases unread : 0 < after.rest.length
  · rw [if_pos unread] at outcome
    contradiction
  · rw [if_neg unread] at outcome
    obtain rfl := Except.ok.inj outcome
    exact ⟨headed, after, read, List.length_eq_zero_iff.mp (Nat.eq_zero_of_not_pos unread)⟩

theorem body_of_load_eq_trailingBytes {limits : Limits} {version : UInt16} {body : List UInt8}
    {count : Nat} (loaded : load limits (imageOf version body) = .error (.trailingBytes count)) :
    Headed limits version body ∧ 0 < count ∧
      ∃ program after, Reader.body limits version ⟨body, 6⟩ = .ok (program, after) ∧
        after.rest.length = count := by
  have ends : Ends (.error (.trailingBytes count)) :=
    fun problem failed => ⟨count, (Except.error.inj failed).symm⟩
  obtain ⟨headed, program, after, read, outcome⟩ := body_of_load loaded ends
  by_cases unread : 0 < after.rest.length
  · rw [if_pos unread] at outcome
    cases outcome
    exact ⟨headed, unread, program, after, read, rfl⟩
  · rw [if_neg unread] at outcome
    contradiction

/-!
## Cutting and continuing
-/

theorem length_imageOf (version : UInt16) (body : List UInt8) :
    (imageOf version body).length = 6 + body.length := by
  simp only [imageOf, List.length_append, length_bigEndian]
  omega

theorem exists_append_of_append_eq {α : Type} {first rest kept lost : List α}
    (same : first ++ rest = kept ++ lost) (long : first.length ≤ kept.length) :
    ∃ middle, kept = first ++ middle ∧ rest = middle ++ lost := by
  have starts : first <+: kept ++ lost := same ▸ List.prefix_append first rest
  obtain ⟨middle, rfl⟩ :=
    List.prefix_of_prefix_length_le starts (List.prefix_append kept lost) long
  refine ⟨middle, rfl, ?_⟩
  rwa [List.append_assoc, List.append_cancel_left_eq] at same

/-- How loading answers when an accepted image is cut off or continued, with the length of its
body as it then is or as it was. -/
structure Delimits (limits : Limits) (version : UInt16) (body : List UInt8) : Prop where
  /-- A part of the body with its own length ends where something is still to be read. -/
  cut : ∀ kept lost, body = kept ++ lost → lost ≠ [] →
    ∃ offset field, load limits (imageOf version kept) = .error (.truncated offset field) ∧
      offset ≤ (imageOf version kept).length
  /-- Of a longer body exactly what is added is left unread. -/
  continued : ∀ more, more ≠ [] → (body ++ more).length < 4294967296 →
    load limits (imageOf version (body ++ more)) = .error (.trailingBytes more.length)
  /-- A part of the image is recognised by the length, unless that is cut off itself. -/
  cutImage : ∀ kept lost, imageOf version body = kept ++ lost → lost ≠ [] →
    if kept.length < 6 then
      ∃ offset field, load limits kept = .error (.truncated offset field) ∧
        offset ≤ kept.length
    else
      load limits kept = .error (.lengthMismatch body.length (kept.length - 6))
  continuedImage : ∀ more, more ≠ [] →
    load limits (imageOf version body ++ more) =
      .error (.lengthMismatch body.length (body.length + more.length))

theorem Headed.of_append {limits : Limits} {version : UInt16} {kept lost : List UInt8}
    (headed : Headed limits version (kept ++ lost)) : Headed limits version kept := by
  refine ⟨headed.supported, Nat.lt_of_le_of_lt ?_ headed.short⟩
  rw [List.length_append]
  exact Nat.le_add_right _ _

/-- A body that can be read cannot be read before its end. -/
theorem load_cut {limits : Limits} {version : UInt16} {kept lost : List UInt8}
    {program : Program} (loaded : load limits (imageOf version (kept ++ lost)) = .ok program)
    (proper : lost ≠ []) :
    ∃ offset field, load limits (imageOf version kept) = .error (.truncated offset field) ∧
      offset ≤ (imageOf version kept).length := by
  obtain ⟨headed, after, read, ended⟩ := body_of_load_eq_ok loaded
  have delimited := Reader.delimited_body limits version
  cases readKept : Reader.body limits version ⟨kept, 6⟩ with
  | ok step =>
      -- The same result would be read from the whole body, with something left.
      obtain ⟨found, early⟩ := step
      obtain ⟨used, passes, same⟩ := delimited.passes _ _ _ readKept
      have whole := same (early.rest ++ lost)
      rw [← List.append_assoc, ← passes.rest, read] at whole
      cases whole
      exact absurd (List.append_eq_nil_iff.mp ended).2 proper
  | error problem =>
      rcases delimited.fails _ _ readKept with ⟨offset, field, rfl, inside⟩ | ⟨-, stays⟩
      · refine ⟨offset, field, load_of_body_eq_error headed.of_append readKept, ?_⟩
        rw [length_imageOf]
        exact inside
      · have whole := stays lost
        rw [read] at whole
        contradiction

theorem load_continued {limits : Limits} {version : UInt16} {body more : List UInt8}
    {program : Program} (loaded : load limits (imageOf version body) = .ok program)
    (proper : more ≠ []) (short : (body ++ more).length < 4294967296) :
    load limits (imageOf version (body ++ more)) = .error (.trailingBytes more.length) := by
  obtain ⟨headed, after, read, ended⟩ := body_of_load_eq_ok loaded
  obtain ⟨used, passes, same⟩ := (Reader.delimited_body limits version).passes _ _ _ read
  have usedAll : used = body := by
    rw [show body = used ++ after.rest from passes.rest, ended, List.append_nil]
  rw [load_of_body_eq_ok ⟨headed.supported, short⟩ (usedAll ▸ same more),
    if_pos (List.length_pos_iff.mpr proper)]

/-- Behind a supported version the length that is declared is compared with what follows. -/
theorem load_of_wrong_length {limits : Limits} {version : UInt16} {body found : List UInt8}
    (headed : Headed limits version body) (wrong : body.length ≠ found.length) :
    load limits (bigEndian 2 version.toNat ++ (bigEndian 4 body.length ++ found)) =
      .error (.lengthMismatch body.length found.length) := by
  have declared : body.length % 4294967296 = body.length := Nat.mod_eq_of_lt headed.short
  rw [load_header, if_neg (UInt16.not_lt.mpr headed.supported), declared, if_pos wrong]

theorem load_of_no_version (limits : Limits) {image : List UInt8} (short : image.length < 2) :
    load limits image = .error (.truncated 0 .version) := by
  have failed : Reader.program limits ⟨image, 0⟩ = .error (.truncated 0 .version) :=
    Reader.bind_eq_error_iff.mpr (.inl (Reader.number_of_short .version 2 ⟨image, 0⟩ short))
  change Except.map Prod.fst (Reader.program limits ⟨image, 0⟩) = _
  rw [failed]
  rfl

theorem load_of_no_length (limits : Limits) (version : UInt16) {found : List UInt8}
    (short : found.length < 4) :
    load limits (bigEndian 2 version.toNat ++ found) =
      if limits.supportedVersion < version then
        .error (.unsupportedVersion version limits.supportedVersion)
      else
        .error (.truncated 2 .length) := by
  change Except.map Prod.fst (Reader.program limits _) = _
  rw [Reader.program, Reader.bind_of_eq_ok (Reader.number_bigEndian ..), ofNat_toNat_mod]
  by_cases tooNew : limits.supportedVersion < version
  · rw [if_pos tooNew, if_pos tooNew]
    rfl
  · rw [if_neg tooNew, if_neg tooNew]
    dsimp only
    have failed := Reader.number_of_short .length 4 ⟨found, 0 + 2⟩ short
    rw [Reader.bind_eq_error_iff.mpr (.inl failed)]
    rfl

/-- An image is truncated where its version or its length is not complete. -/
theorem load_of_short {limits : Limits} {version : UInt16} {kept lost rest : List UInt8}
    (supported : version ≤ limits.supportedVersion)
    (same : bigEndian 2 version.toNat ++ rest = kept ++ lost) (short : kept.length < 6) :
    ∃ offset field, load limits kept = .error (.truncated offset field) ∧
      offset ≤ kept.length := by
  by_cases noVersion : kept.length < 2
  · exact ⟨0, .version, load_of_no_version limits noVersion, Nat.zero_le _⟩
  · have long : (bigEndian 2 version.toNat).length ≤ kept.length := by
      rw [length_bigEndian]
      exact Nat.le_of_not_lt noVersion
    obtain ⟨found, rfl, -⟩ := exists_append_of_append_eq same long
    rw [List.length_append, length_bigEndian] at short ⊢
    refine ⟨2, .length, ?_, Nat.le_add_right _ _⟩
    rw [load_of_no_length limits version (by omega), if_neg (UInt16.not_lt.mpr supported)]

theorem load_cutImage {limits : Limits} {version : UInt16} {body kept lost : List UInt8}
    (headed : Headed limits version body) (same : imageOf version body = kept ++ lost)
    (proper : lost ≠ []) (long : 6 ≤ kept.length) :
    load limits kept = .error (.lengthMismatch body.length (kept.length - 6)) := by
  rw [imageOf, ← List.append_assoc] at same
  have header : (bigEndian 2 version.toNat ++ bigEndian 4 body.length).length = 6 := by simp
  obtain ⟨found, rfl, bodyParts⟩ := exists_append_of_append_eq same (header ▸ long)
  have shorter : body.length ≠ found.length := by
    have lengths := congrArg List.length bodyParts
    rw [List.length_append] at lengths
    have positive := List.length_pos_iff.mpr proper
    omega
  rw [List.length_append, header, Nat.add_sub_cancel_left, List.append_assoc]
  exact load_of_wrong_length headed shorter

/-- Bodies delimit themselves.  Every part of an accepted body is truncated, and of everything
that continues it just the continuation is left unread; and if a number of bytes is reported as
unread, then the body is accepted without these bytes. -/
theorem load_imageOf_delimits (limits : Limits) (version : UInt16) (body : List UInt8) :
    (∀ program, load limits (imageOf version body) = .ok program →
      Delimits limits version body) ∧
    ∀ count, load limits (imageOf version body) = .error (.trailingBytes count) →
      0 < count ∧ count ≤ body.length ∧
        ∃ program,
          load limits (imageOf version (body.take (body.length - count))) = .ok program := by
  constructor
  · intro program loaded
    obtain ⟨headed, -⟩ := body_of_load_eq_ok loaded
    constructor
    case cut =>
      rintro kept lost rfl proper
      exact load_cut loaded proper
    case continued =>
      intro more proper short
      exact load_continued loaded proper short
    case cutImage =>
      intro kept lost same proper
      by_cases short : kept.length < 6
      · rw [if_pos short]
        exact load_of_short headed.supported same short
      · rw [if_neg short]
        exact load_cutImage headed same proper (Nat.le_of_not_lt short)
    case continuedImage =>
      intro more proper
      have longer : body.length ≠ (body ++ more).length := by
        have positive := List.length_pos_iff.mpr proper
        rw [List.length_append]
        omega
      rw [imageOf, List.append_assoc, List.append_assoc, ← List.length_append]
      exact load_of_wrong_length headed longer
  · intro count left
    obtain ⟨headed, positive, program, after, read, rfl⟩ := body_of_load_eq_trailingBytes left
    obtain ⟨used, passes, same⟩ := (Reader.delimited_body limits version).passes _ _ _ read
    obtain rfl : body = used ++ after.rest := passes.rest
    have ended := same []
    rw [List.append_nil] at ended
    refine ⟨positive, ?_, program, ?_⟩
    · rw [List.length_append]
      exact Nat.le_add_left _ _
    · rw [List.length_append, Nat.add_sub_cancel, List.take_left,
        load_of_body_eq_ok headed.of_append ended]
      rfl

/-- The body of a program without parameters whose main condition is an empty block. -/
def emptyBody : List UInt8 :=
  [0, 1, 103, 0, 0, 1, 0, 0]

theorem load_emptyBody : Delimits ⟨1, 1⟩ 1 emptyBody ∧
    load ⟨1, 1⟩ (imageOf 1 (emptyBody ++ [1, 2])) = .error (.trailingBytes 2) ∧
    ∃ program,
      load ⟨1, 1⟩ (imageOf 1 ((emptyBody ++ [1, 2]).take (10 - 2))) = .ok program := by
  have loaded : load ⟨1, 1⟩ (imageOf 1 emptyBody) = .ok ⟨1, "g", [], .all []⟩ :=
    rfl
  have delimits := (load_imageOf_delimits ⟨1, 1⟩ 1 emptyBody).1 _ loaded
  have left := delimits.continued [1, 2] (by decide) (by decide)
  exact ⟨delimits, left, ((load_imageOf_delimits ⟨1, 1⟩ 1 (emptyBody ++ [1, 2])).2 2 left).2.2⟩

end Program

end Cohort
