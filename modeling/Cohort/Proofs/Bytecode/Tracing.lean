import Cohort.Proofs.Bytecode.Delimiting

/-!
# Faults in the bytes that were read

A fault is shown by the bytes up to the one where reading stopped, and by how few are left behind
them.  So a reader has the same fault wherever it meets the same bytes with as many behind them.
-/

namespace Cohort

variable {α β : Type}

/-- The bytes that a field has; of a text those of its length. -/
def Field.width : Field → Nat
  | version | scriptName | parameterCount | parameterName | childCount | parameterReference => 2
  | length | intLiteral => 4
  | valueType | opcode => 1
  | dateLiteral => 8

/-- Whether a field is a text, which has its characters behind its length. -/
def Field.isText : Field → Bool
  | scriptName | parameterName | parameterReference => true
  | version | length | parameterCount | valueType | opcode | childCount | dateLiteral
  | intLiteral => false

/-- A text begins with its length. -/
theorem Field.width_of_isText {field : Field} (isText : field.isText = true) :
    field.width = 2 := by
  cases field with
  | scriptName | parameterName | parameterReference => rfl
  | _ => contradiction

/-- How many bytes of a field are read at once behind some others: all that it has, or as many
characters of a text as the length in front of them says. -/
inductive Field.Takes (before : List UInt8) : Field → Nat → Prop where
  | whole (field : Field) : Takes before field field.width
  | characters {field : Field} {earlier : List UInt8} {count : Nat} :
      field.isText = true → count < 65536 → before = earlier ++ bigEndian 2 count →
      Takes before field count

/-- What the bytes that were read from a place on show of a fault, so many being left. -/
def LoadError.ShownBy (start : Nat) (used : List UInt8) (left : Nat) : LoadError → Prop
  | unknownOpcode byte offset =>
      ¬(1 ≤ byte ∧ byte ≤ 4) ∧
        ∃ earlier, used = earlier ++ [byte] ∧ offset = start + earlier.length
  | unknownValueType byte offset =>
      ¬byte ≤ 2 ∧ ∃ earlier, used = earlier ++ [byte] ∧ offset = start + earlier.length
  | invalidText offset =>
      ∃ earlier characters, used = earlier ++ (bigEndian 2 characters.length ++ characters) ∧
        characters.length < 65536 ∧ (∃ character ∈ characters, 128 ≤ character) ∧
        offset = start + earlier.length + 2
  | truncated offset field =>
      offset = start + used.length ∧ ∃ needed, field.Takes used needed ∧ left < needed
  | lengthMismatch _ _ => False
  | _ => True

theorem Field.Takes.prepend {field : Field} {before : List UInt8} {needed : Nat}
    (takes : field.Takes before needed) (earlier : List UInt8) :
    field.Takes (earlier ++ before) needed := by
  cases takes with
  | whole => exact .whole field
  | characters isText small split =>
      exact .characters isText small (by rw [split, List.append_assoc])

theorem LoadError.ShownBy.prepend {start left : Nat} {first used : List UInt8}
    {problem : LoadError} (shown : problem.ShownBy (start + first.length) used left) :
    problem.ShownBy start (first ++ used) left := by
  cases problem with
  | unknownOpcode byte offset =>
      obtain ⟨unknown, earlier, rfl, rfl⟩ := shown
      exact ⟨unknown, first ++ earlier, by simp, by simp [Nat.add_assoc]⟩
  | unknownValueType byte offset =>
      obtain ⟨unknown, earlier, rfl, rfl⟩ := shown
      exact ⟨unknown, first ++ earlier, by simp, by simp [Nat.add_assoc]⟩
  | invalidText offset =>
      obtain ⟨earlier, characters, rfl, short, foreign, rfl⟩ := shown
      exact ⟨first ++ earlier, characters, by simp, short, foreign, by simp [Nat.add_assoc]⟩
  | truncated offset field =>
      obtain ⟨rfl, needed, takes, few⟩ := shown
      exact ⟨by simp [Nat.add_assoc], needed, takes.prepend first, few⟩
  | lengthMismatch declared actual => exact shown
  | _ => trivial

namespace Reader

/-- Whether a reader has a fault at a cursor because of bytes there that show it, and of how many
are left behind these. -/
def FailsAt (read : Reader α) (cursor : Cursor) (problem : LoadError) : Prop :=
  ∃ used left, cursor.rest = used ++ left ∧ problem.ShownBy cursor.offset used left.length ∧
    ∀ more, more.length = left.length →
      read ⟨used ++ more, cursor.offset⟩ = .error problem

/-- A reader that sees no further than it reads, and has no fault but those that are shown by what
it has read. -/
structure Traceable (read : Reader α) : Prop extends Delimited read where
  traces : ∀ cursor problem, read cursor = .error problem → FailsAt read cursor problem

namespace Traceable

theorem pure (result : α) : Traceable (pure result : Reader α) where
  toDelimited := .pure result
  traces := by
    intro cursor problem failed
    contradiction

/-- A fault that needs no bytes to be shown. -/
theorem throw {problem : LoadError} (settled : problem.IsSettled)
    (shown : ∀ start left, problem.ShownBy start [] left) :
    Traceable (throw problem : Reader α) where
  toDelimited := .throw settled
  traces := by
    intro cursor found failed
    cases failed
    exact ⟨[], cursor.rest, rfl, shown _ _, fun more _ => rfl⟩

theorem bind {read : Reader α} {next : α → Reader β} (first : Traceable read)
    (later : ∀ value, Traceable (next value)) : Traceable (read >>= next) where
  toDelimited := first.toDelimited.bind fun value => (later value).toDelimited
  traces := by
    intro cursor problem failed
    rcases bind_eq_error_iff.mp failed with failedFirst | ⟨value, middle, found, failedLater⟩
    · obtain ⟨used, left, split, shown, same⟩ := first.traces _ _ failedFirst
      exact ⟨used, left, split, shown,
        fun more length => bind_eq_error_iff.mpr (.inl (same more length))⟩
    · obtain ⟨usedFirst, passes, sameFirst⟩ := first.passes _ _ _ found
      obtain ⟨used, left, split, shown, same⟩ := (later value).traces _ _ failedLater
      refine ⟨usedFirst ++ used, left, ?_, ?_, fun more length => ?_⟩
      · rw [passes.rest, split, List.append_assoc]
      · rw [passes.offset] at shown
        exact shown.prepend
      · rw [List.append_assoc, bind_of_eq_ok (sameFirst (used ++ more))]
        exact same more length

theorem ite {condition : Prop} [Decidable condition] {first second : Reader α}
    (whenTrue : Traceable first) (whenFalse : Traceable second) :
    Traceable (if condition then first else second) := by
  by_cases holds : condition
  · rwa [if_pos holds]
  · rwa [if_neg holds]

/-- A check that stops with a fault that needs no bytes to be shown. -/
theorem check {failing : Prop} [Decidable failing] {problem : LoadError} {next : Reader α}
    (settled : problem.IsSettled) (shown : ∀ start left, problem.ShownBy start [] left)
    (later : Traceable next) :
    Traceable (if failing then (MonadExcept.throw problem : Reader PUnit) >>= fun _ => next
      else next) :=
  ite (bind (throw settled shown) fun _ => later) later

end Traceable

theorem bytes_eq_error_iff {field : Field} {count : Nat} {cursor : Cursor} {problem : LoadError} :
    bytes field count cursor = .error problem ↔
      cursor.rest.length < count ∧ problem = .truncated cursor.offset field := by
  have enough : (cursor.rest.take count).length = count ↔ ¬cursor.rest.length < count := by
    rw [List.length_take]
    omega
  unfold bytes
  dsimp only
  by_cases short : cursor.rest.length < count
  · rw [if_neg (mt enough.mp (not_not_intro short))]
    simp [short, eq_comm]
  · rw [if_pos (enough.mpr short)]
    simp [short]

theorem number_eq_error_iff {field : Field} {width : Nat} {cursor : Cursor}
    {problem : LoadError} :
    number field width cursor = .error problem ↔
      cursor.rest.length < width ∧ problem = .truncated cursor.offset field := by
  unfold number
  rw [bind_eq_error_iff, ← bytes_eq_error_iff]
  constructor
  · rintro (failed | ⟨value, middle, -, impossible⟩)
    · exact failed
    · contradiction
  · exact .inl

/-- A field that is not complete is truncated where it begins. -/
theorem traceable_number (field : Field) : Traceable (number field field.width) where
  toDelimited := delimited_number field field.width
  traces := by
    intro cursor problem failed
    obtain ⟨short, rfl⟩ := number_eq_error_iff.mp failed
    refine ⟨[], cursor.rest, rfl, ⟨rfl, field.width, .whole field, short⟩, fun more length => ?_⟩
    exact number_eq_error_iff.mpr ⟨by rwa [List.nil_append, length], rfl⟩

/-!
## Tags
-/

/-- Read a byte that stands for something, and report any other. -/
def tag (field : Field) (meaning? : UInt8 → Option α) (unknown : UInt8 → Nat → LoadError) :
    Reader α := do
  let start ← offset
  let byte ← byte field
  match meaning? byte with
  | some meaning => return meaning
  | none => throw (unknown byte start)

theorem tag_cons (field : Field) (meaning? : UInt8 → Option α) (unknown : UInt8 → Nat → LoadError)
    (byte : UInt8) (rest : List UInt8) (start : Nat) :
    tag field meaning? unknown ⟨byte :: rest, start⟩ =
      match meaning? byte with
      | some meaning => .ok (meaning, ⟨rest, start + 1⟩)
      | none => .error (unknown byte start) := by
  have read : Reader.byte field ⟨byte :: rest, start⟩ = .ok (byte, ⟨rest, start + 1⟩) :=
    (reads_byte field _ _ _).mpr ⟨trivial, rfl, rfl⟩
  rw [tag, bind_of_eq_ok (offset_eq_ok_iff.mpr ⟨rfl, rfl⟩), bind_of_eq_ok read]
  cases meaning? byte <;> rfl

theorem traceable_tag {field : Field} (single : field.width = 1) {meaning? : UInt8 → Option α}
    {unknown : UInt8 → Nat → LoadError} (settled : ∀ byte start, (unknown byte start).IsSettled)
    (shown : ∀ byte, meaning? byte = none →
      ∀ start left, (unknown byte start).ShownBy start [byte] left) :
    Traceable (tag field meaning? unknown) where
  toDelimited := by
    apply delimited_offset.bind
    intro start
    apply (delimited_byte field).bind
    intro byte
    cases meaning? byte with
    | some meaning => exact .pure meaning
    | none => exact .throw (settled byte start)
  traces := by
    rintro ⟨rest, start⟩ problem failed
    cases rest with
    | nil =>
        have short : Reader.byte field ⟨[], start⟩ = .error (.truncated start field) :=
          bind_eq_error_iff.mpr (.inl (number_eq_error_iff.mpr ⟨Nat.zero_lt_one, rfl⟩))
        have truncated : tag field meaning? unknown ⟨[], start⟩ =
            .error (.truncated start field) := by
          rw [tag, bind_of_eq_ok (offset_eq_ok_iff.mpr ⟨rfl, rfl⟩)]
          exact bind_eq_error_iff.mpr (.inl short)
        rw [truncated] at failed
        cases failed
        refine ⟨[], [], rfl, ⟨rfl, field.width, .whole field, by simp [single]⟩, ?_⟩
        intro more none
        rw [List.length_eq_zero_iff.mp none]
        exact truncated
    | cons byte left =>
        rw [tag_cons] at failed
        cases found : meaning? byte with
        | some meaning =>
            rw [found] at failed
            contradiction
        | none =>
            rw [found] at failed
            cases failed
            refine ⟨[byte], left, rfl, shown byte found _ _, fun more _ => ?_⟩
            rw [List.singleton_append, tag_cons, found]

theorem valueType_eq_tag : valueType = tag .valueType ValueType.ofByte? .unknownValueType := by
  refine bind_congr fun start => bind_congr fun byte => ?_
  cases ValueType.ofByte? byte <;> rfl

theorem traceable_valueType : Traceable valueType := by
  rw [valueType_eq_tag]
  refine traceable_tag rfl (fun _ _ => trivial) fun byte unknown start left => ?_
  refine ⟨fun known => ?_, [], rfl, rfl⟩
  have tags : byte.toNat = 0 ∨ byte.toNat = 1 ∨ byte.toNat = 2 := by
    have upper : byte.toNat ≤ 2 := known
    omega
  rcases tags with tag | tag | tag <;> simp [ValueType.ofByte?, tag] at unknown

/-- What a condition is according to the byte that it begins with: a block, or a test. -/
def form? (byte : UInt8) : Option (Option Test) :=
  match Opcode.ofByte? byte with
  | some .all => some none
  | some (.test kind) => some (some kind)
  | some .reserved | none => none

theorem traceable_form : Traceable (tag .opcode form? .unknownOpcode) := by
  refine traceable_tag rfl (fun _ _ => trivial) fun byte unknown start left => ?_
  refine ⟨fun ⟨positive, known⟩ => ?_, [], rfl, rfl⟩
  have tags : byte.toNat = 1 ∨ byte.toNat = 2 ∨ byte.toNat = 3 ∨ byte.toNat = 4 := by
    have lower : 1 ≤ byte.toNat := positive
    have upper : byte.toNat ≤ 4 := known
    omega
  rcases tags with tag | tag | tag | tag <;> simp [form?, Opcode.ofByte?, tag] at unknown

theorem condition_succ (declared : List Parameter) (limit levels : Nat) :
    condition declared limit (levels + 1) =
      (tag .opcode form? .unknownOpcode >>= fun form =>
        match form with
        | none => do
            let count ← number .childCount 2
            return .all (← times (condition declared limit levels) count [])
        | some kind => return .test kind (← value declared kind)) := by
  rw [condition, tag, bind_assoc]
  refine bind_congr fun start => ?_
  rw [bind_assoc]
  refine bind_congr fun byte => ?_
  unfold form?
  cases Opcode.ofByte? byte with
  | none => rfl
  | some opcode => cases opcode <;> rfl

/-!
## Texts
-/

theorem exists_bigEndian {width : Nat} {bytes : List UInt8} (long : width ≤ bytes.length) :
    ∃ number rest, number < Nat.pow 256 width ∧ bytes = bigEndian width number ++ rest := by
  have taken : (bytes.take width).length = width := by
    rw [List.length_take, Nat.min_eq_left long]
  refine ⟨ofBigEndian (bytes.take width), bytes.drop width, ?_, ?_⟩
  · have bound := ofBigEndian_lt (bytes.take width)
    rwa [taken] at bound
  · have digits := bigEndian_ofBigEndian (bytes.take width)
    rw [taken] at digits
    rw [digits, List.take_append_drop]

theorem text_bigEndian (field : Field) {length : Nat} (small : length < 65536) (rest : List UInt8)
    (start : Nat) :
    text field ⟨bigEndian 2 length ++ rest, start⟩ =
      (bytes field length >>= fun characters =>
        if characters.all (· < 128) then
          return String.ofList (characters.map fun character => Char.ofNat character.toNat)
        else
          throw (.invalidText (start + 2))) ⟨rest, start + 2⟩ := by
  have read := number_bigEndian field 2 length rest start
  rw [Nat.mod_eq_of_lt small] at read
  rw [text, bind_of_eq_ok read, bind_of_eq_ok (offset_eq_ok_iff.mpr ⟨rfl, rfl⟩)]

theorem text_of_short (field : Field) {length : Nat} (small : length < 65536) {rest : List UInt8}
    (short : rest.length < length) (start : Nat) :
    text field ⟨bigEndian 2 length ++ rest, start⟩ = .error (.truncated (start + 2) field) := by
  rw [text_bigEndian field small]
  exact bind_eq_error_iff.mpr (.inl (bytes_eq_error_iff.mpr ⟨short, rfl⟩))

theorem text_of_characters (field : Field) {characters : List UInt8}
    (small : characters.length < 65536) (rest : List UInt8) (start : Nat) :
    text field ⟨bigEndian 2 characters.length ++ (characters ++ rest), start⟩ =
      if characters.all (· < 128) then
        .ok (String.ofList (characters.map fun character => Char.ofNat character.toNat),
          ⟨rest, start + 2 + characters.length⟩)
      else
        .error (.invalidText (start + 2)) := by
  have read : bytes field characters.length ⟨characters ++ rest, start + 2⟩ =
      .ok (characters, ⟨rest, start + 2 + characters.length⟩) :=
    (reads_bytes field _ _ _ _).mpr ⟨rfl, rfl, rfl⟩
  rw [text_bigEndian field small, bind_of_eq_ok read]
  cases characters.all (· < 128) <;> rfl

/-- A text is truncated where its length or where its characters begin, and refused where its
characters begin. -/
theorem traceable_text (field : Field) (isText : field.isText = true) :
    Traceable (text field) where
  toDelimited := delimited_text field
  traces := by
    rintro ⟨rest, start⟩ problem failed
    by_cases noLength : rest.length < 2
    · have failedLength := number_of_short field 2 ⟨rest, start⟩ noLength
      have truncated := (bind_eq_error_iff.mpr (.inl failedLength)).symm.trans failed
      cases truncated
      refine ⟨[], rest, rfl, ⟨rfl, field.width, .whole field, ?_⟩, ?_⟩
      · rwa [Field.width_of_isText isText]
      · intro more same
        exact bind_eq_error_iff.mpr
          (.inl (number_of_short field 2 ⟨more, start⟩ (same.symm ▸ noLength)))
    · obtain ⟨length, later, small, rfl⟩ := exists_bigEndian (Nat.le_of_not_lt noLength)
      by_cases few : later.length < length
      · rw [text_of_short field small few] at failed
        cases failed
        refine ⟨bigEndian 2 length, later, rfl, ⟨by simp, length, ?_, few⟩, fun more same => ?_⟩
        · exact .characters isText small (List.nil_append _).symm
        · exact text_of_short field small (same.symm ▸ few) start
      · obtain ⟨characters, left, rfl, rfl⟩ :
            ∃ characters left, later = characters ++ left ∧ length = characters.length :=
          ⟨later.take length, later.drop length, (List.take_append_drop length later).symm,
            by rw [List.length_take]; omega⟩
        rw [text_of_characters field small] at failed
        by_cases ascii : characters.all (· < 128) = true
        · rw [if_pos ascii] at failed
          contradiction
        · rw [if_neg ascii] at failed
          cases failed
          refine ⟨bigEndian 2 characters.length ++ characters, left, by simp,
            ⟨[], characters, rfl, small, ?_, rfl⟩, fun more _ => ?_⟩
          · simpa using ascii
          · rw [List.append_assoc, text_of_characters field small, if_neg ascii]

/-!
## Bodies
-/

theorem traceable_times {read : Reader α} (traceable : Traceable read) (count : Nat)
    (results : List α) : Traceable (times read count results) := by
  induction count generalizing results with
  | zero => exact .pure results.reverse
  | succ count inductionHypothesis =>
      rw [times_succ]
      exact traceable.bind fun result => inductionHypothesis (result :: results)

theorem traceable_parameter (declared : List Parameter) : Traceable (parameter declared) := by
  apply traceable_valueType.bind
  intro type
  apply (traceable_text .parameterName rfl).bind
  intro name
  exact .check trivial (fun _ _ => trivial) (.check trivial (fun _ _ => trivial) (.pure _))

theorem traceable_parameters (count : Nat) (declared : List Parameter) :
    Traceable (parameters count declared) := by
  induction count generalizing declared with
  | zero => exact .pure declared.reverse
  | succ count inductionHypothesis =>
      rw [parameters_succ]
      exact (traceable_parameter declared).bind fun next => inductionHypothesis (next :: declared)

theorem traceable_value (declared : List Parameter) (test : Test) :
    Traceable (value declared test) := by
  apply traceable_valueType.bind
  intro type
  cases type with
  | reference =>
      apply (traceable_text .parameterReference rfl).bind
      intro name
      cases declared.find? (·.name == name) with
      | none => exact .throw trivial fun _ _ => trivial
      | some parameter => exact .ite (.pure _) (.throw trivial fun _ _ => trivial)
  | date =>
      refine .ite ((traceable_number .dateLiteral).bind fun ticks => ?_)
        (.throw trivial fun _ _ => trivial)
      cases Timestamp.ofTicks? ticks with
      | some timestamp => exact .pure _
      | none => exact .throw trivial fun _ _ => trivial
  | int32 =>
      exact .ite ((traceable_number .intLiteral).bind fun _ => .pure _)
        (.throw trivial fun _ _ => trivial)

theorem traceable_condition (declared : List Parameter) (limit levels : Nat) :
    Traceable (condition declared limit levels) := by
  induction levels with
  | zero => exact .throw trivial fun _ _ => trivial
  | succ levels inductionHypothesis =>
      rw [condition_succ]
      apply traceable_form.bind
      intro form
      cases form with
      | none =>
          apply (traceable_number .childCount).bind
          intro count
          exact (traceable_times inductionHypothesis count []).bind fun _ => .pure _
      | some kind => exact (traceable_value declared kind).bind fun _ => .pure _

theorem traceable_body (limits : Limits) (version : UInt16) :
    Traceable (body limits version) := by
  apply (traceable_text .scriptName rfl).bind
  intro name
  apply (traceable_number .parameterCount).bind
  intro count
  apply (traceable_parameters count []).bind
  intro parameters
  apply (traceable_condition parameters limits.maxDepth limits.maxDepth).bind
  intro root
  exact .check trivial (fun _ _ => trivial) (.pure _)

theorem delimited_body (limits : Limits) (version : UInt16) : Delimited (body limits version) :=
  (traceable_body limits version).toDelimited

end Reader

end Cohort
