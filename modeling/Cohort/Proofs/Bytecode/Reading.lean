import Cohort.Bytecode.Loading
import Cohort.Proofs.Bytecode.Layout

/-!
# What readers read

A reader `Reads` a layout if it succeeds exactly on the bytes that lay out a valid result, and
leaves exactly what follows them.  Every reader of the loader is described in this way.
-/

namespace Cohort

variable {α β : Type}

/-- Whether reading leads from one cursor to another by passing over the given bytes. -/
structure Cursor.Passes (cursor : Cursor) (bytes : List UInt8) (after : Cursor) : Prop where
  rest : cursor.rest = bytes ++ after.rest
  offset : after.offset = cursor.offset + bytes.length

namespace Cursor

theorem passes_nil_iff {cursor after : Cursor} : cursor.Passes [] after ↔ after = cursor := by
  obtain ⟨rest, offset⟩ := cursor
  obtain ⟨laterRest, laterOffset⟩ := after
  constructor
  · rintro ⟨rests, offsets⟩
    rw [Cursor.mk.injEq]
    exact ⟨rests.symm, offsets⟩
  · intro equality
    rw [Cursor.mk.injEq] at equality
    exact ⟨equality.1.symm, equality.2⟩

theorem passes_append_iff {cursor after : Cursor} {first second : List UInt8} :
    cursor.Passes (first ++ second) after ↔
      ∃ middle, cursor.Passes first middle ∧ middle.Passes second after := by
  constructor
  · rintro ⟨rest, offset⟩
    refine ⟨⟨second ++ after.rest, cursor.offset + first.length⟩, ⟨?_, rfl⟩, rfl, ?_⟩
    · rw [rest, List.append_assoc]
    · rw [offset, List.length_append, Nat.add_assoc]
  · rintro ⟨middle, ⟨firstRest, firstOffset⟩, secondRest, secondOffset⟩
    refine ⟨?_, ?_⟩
    · rw [firstRest, secondRest, List.append_assoc]
    · rw [secondOffset, firstOffset, List.length_append, Nat.add_assoc]

theorem passes_cons_iff {cursor after : Cursor} {byte : UInt8} {bytes : List UInt8} :
    cursor.Passes (byte :: bytes) after ↔
      ∃ middle, cursor.Passes [byte] middle ∧ middle.Passes bytes after := by
  rw [← passes_append_iff]
  rfl

end Cursor

namespace Reader

theorem bind_eq_ok_iff {read : Reader α} {next : α → Reader β} {cursor after : Cursor}
    {result : β} :
    (read >>= next) cursor = .ok (result, after) ↔
      ∃ value middle, read cursor = .ok (value, middle) ∧
        next value middle = .ok (result, after) := by
  change Except.bind (read cursor) (fun step => next step.1 step.2) = _ ↔ _
  cases read cursor with
  | error problem => simp [Except.bind]
  | ok step =>
      obtain ⟨value, middle⟩ := step
      simp [Except.bind]

theorem pure_eq_ok_iff {value result : α} {cursor after : Cursor} :
    (pure value : Reader α) cursor = .ok (result, after) ↔ value = result ∧ cursor = after := by
  change Except.ok (value, cursor) = _ ↔ _
  simp

theorem throw_ne_ok {problem : LoadError} {cursor after : Cursor} {result : α} :
    (throw problem : Reader α) cursor ≠ .ok (result, after) := by
  change Except.error problem ≠ _
  simp

theorem unless_eq_ok_iff {failing : Prop} [Decidable failing] {problem : LoadError}
    {next : Reader α} {cursor after : Cursor} {result : α} :
    (if failing then (throw problem : Reader PUnit) >>= fun _ => next else next) cursor =
        .ok (result, after) ↔
      ¬failing ∧ next cursor = .ok (result, after) := by
  by_cases fails : failing
  · rw [if_pos fails, bind_eq_ok_iff]
    constructor
    · rintro ⟨value, middle, thrown, -⟩
      exact absurd thrown throw_ne_ok
    · exact fun passed => absurd fails passed.1
  · rw [if_neg fails]
    exact ⟨fun read => ⟨fails, read⟩, fun passed => passed.2⟩

theorem ite_throw_eq_ok_iff {allowed : Prop} [Decidable allowed] {problem : LoadError}
    {next : Reader α} {cursor after : Cursor} {result : α} :
    (if allowed then next else throw problem) cursor = .ok (result, after) ↔
      allowed ∧ next cursor = .ok (result, after) := by
  by_cases passes : allowed
  · rw [if_pos passes]
    exact ⟨fun read => ⟨passes, read⟩, fun passed => passed.2⟩
  · rw [if_neg passes]
    exact ⟨fun thrown => absurd thrown throw_ne_ok, fun passed => absurd passed.1 passes⟩

theorem offset_eq_ok_iff {cursor after : Cursor} {place : Nat} :
    offset cursor = .ok (place, after) ↔ cursor.offset = place ∧ cursor = after := by
  change Except.ok (cursor.offset, cursor) = _ ↔ _
  simp

/-- A reader that accepts exactly the layouts of valid results. -/
def Reads (read : Reader α) (layout : α → List UInt8) (valid : α → Prop) : Prop :=
  ∀ cursor result after, read cursor = .ok (result, after) ↔
    valid result ∧ cursor.Passes (layout result) after

theorem reads_bytes (field : Field) (count : Nat) :
    Reads (bytes field count) id (fun bytes => bytes.length = count) := by
  intro cursor result after
  unfold bytes
  dsimp only
  constructor
  · intro read
    split at read
    next enough =>
      cases read
      refine ⟨enough, (List.take_append_drop count cursor.rest).symm, ?_⟩
      rw [id, enough]
    next => contradiction
  · rintro ⟨length, rest, offset⟩
    rw [id] at rest offset
    rw [rest, List.take_left' length, List.drop_left' length, if_pos length, ← length, ← offset]

theorem reads_number (field : Field) (width : Nat) :
    Reads (number field width) (bigEndian width) (· < Nat.pow 256 width) := by
  intro cursor result after
  unfold number
  simp only [bind_eq_ok_iff, pure_eq_ok_iff, reads_bytes field width _ _ _, id]
  constructor
  · rintro ⟨bytes, middle, ⟨length, passes⟩, rfl, rfl⟩
    refine ⟨length ▸ ofBigEndian_lt bytes, ?_⟩
    rwa [← length, bigEndian_ofBigEndian]
  · rintro ⟨small, passes⟩
    refine ⟨bigEndian width result, after, ⟨length_bigEndian width result, passes⟩, ?_, rfl⟩
    rw [ofBigEndian_bigEndian, Nat.mod_eq_of_lt small]

theorem reads_byte (field : Field) : Reads (byte field) (fun byte => [byte]) (fun _ => True) := by
  intro cursor result after
  have written : ∀ byte : UInt8, bigEndian 1 byte.toNat = [byte] := by
    intro byte
    simp [bigEndian]
  unfold byte
  simp only [bind_eq_ok_iff, pure_eq_ok_iff, reads_number field 1 _ _ _, true_and]
  constructor
  · rintro ⟨number, middle, ⟨small, passes⟩, rfl, rfl⟩
    have inByte : number < 2 ^ 8 := small
    rw [← written, UInt8.toNat_ofNat', Nat.mod_eq_of_lt inByte]
    exact passes
  · intro passes
    refine ⟨result.toNat, after, ⟨result.toNat_lt, ?_⟩, UInt8.ofNat_toNat, rfl⟩
    rwa [written]

end Reader

theorem ValueType.ofByte?_eq_some_iff {byte : UInt8} {type : ValueType} :
    ofByte? byte = some type ↔ type.byte = byte := by
  constructor
  · intro found
    unfold ofByte? at found
    split at found
    all_goals first | contradiction | skip
    all_goals
      cases found
      apply UInt8.toNat_inj.mp
      simp [ValueType.byte, *]
  · rintro rfl
    exact ofByte?_byte type

theorem Opcode.ofByte?_eq_some_iff {byte : UInt8} {opcode : Opcode} :
    ofByte? byte = some opcode ↔ opcode.byte = byte := by
  constructor
  · intro found
    unfold ofByte? at found
    split at found
    all_goals first | contradiction | skip
    all_goals
      cases found
      apply UInt8.toNat_inj.mp
      simp [Opcode.byte, *]
  · rintro rfl
    exact ofByte?_byte opcode

namespace Reader

theorem reads_valueType : Reads valueType (fun type => [type.byte]) (fun _ => True) := by
  intro cursor result after
  unfold valueType
  simp only [bind_eq_ok_iff, offset_eq_ok_iff, reads_byte .valueType _ _ _, true_and]
  constructor
  · rintro ⟨_, _, ⟨rfl, rfl⟩, tag, middle, passes, read⟩
    cases found : ValueType.ofByte? tag with
    | some type =>
        rw [found] at read
        obtain ⟨rfl, rfl⟩ := pure_eq_ok_iff.mp read
        rwa [ValueType.ofByte?_eq_some_iff.mp found]
    | none =>
        rw [found] at read
        exact absurd read throw_ne_ok
  · intro passes
    refine ⟨_, _, ⟨rfl, rfl⟩, result.byte, after, passes, ?_⟩
    rw [ValueType.ofByte?_byte]
    exact pure_eq_ok_iff.mpr ⟨rfl, rfl⟩

theorem toNat_ofNat_of_lt {code : Nat} (small : code < 128) : (Char.ofNat code).toNat = code := by
  have valid : code.isValidChar := .inl (by omega)
  rw [Char.ofNat, dif_pos valid]
  rfl

theorem asciiBytes_ofList {bytes : List UInt8} (ascii : ∀ byte ∈ bytes, byte < 128) :
    asciiBytes (String.ofList (bytes.map fun byte => Char.ofNat byte.toNat)) = bytes ∧
      ∀ character ∈ bytes.map (fun byte => Char.ofNat byte.toNat), character.toNat < 128 := by
  have codes : ∀ byte ∈ bytes, (Char.ofNat byte.toNat).toNat = byte.toNat ∧ byte.toNat < 128 := by
    intro byte membership
    have small : byte.toNat < 128 := UInt8.lt_iff_toNat_lt.mp (ascii byte membership)
    exact ⟨toNat_ofNat_of_lt small, small⟩
  constructor
  · rw [asciiBytes, String.toList_ofList, List.map_map]
    refine (List.map_congr_left ?_).trans (List.map_id' bytes)
    intro byte membership
    simp [(codes byte membership).1]
  · intro character membership
    obtain ⟨byte, inBytes, rfl⟩ := List.mem_map.mp membership
    rw [(codes byte inBytes).1]
    exact (codes byte inBytes).2

theorem reads_text (field : Field) : Reads (text field) textLayout IsStorable := by
  intro cursor result after
  unfold text
  simp only [bind_eq_ok_iff, offset_eq_ok_iff, reads_number field 2 _ _ _, textLayout,
    Cursor.passes_append_iff, reads_bytes field _ _ _ _, id]
  constructor
  · rintro ⟨length, start, ⟨short, passesLength⟩, _, _, ⟨rfl, rfl⟩, bytes, finish,
      ⟨rfl, passesText⟩, read⟩
    split at read
    next ascii =>
      rw [pure_eq_ok_iff] at read
      obtain ⟨rfl, rfl⟩ := read
      have small : ∀ byte ∈ bytes, byte < 128 := by simpa using ascii
      have meaning := asciiBytes_ofList small
      refine ⟨⟨?_, ?_⟩, start, ?_, ?_⟩
      · rw [String.toList_ofList]
        exact meaning.2
      · rw [String.toList_ofList, List.length_map]
        exact Nat.le_of_lt_succ short
      · rwa [String.toList_ofList, List.length_map]
      · rwa [meaning.1]
    next => exact absurd read throw_ne_ok
  · rintro ⟨storable, middle, passesLength, passesText⟩
    refine ⟨result.toList.length, middle, ⟨Nat.lt_succ_of_le storable.short, passesLength⟩, _, _,
      ⟨rfl, rfl⟩, asciiBytes result, after, ⟨length_asciiBytes result, passesText⟩, ?_⟩
    have ascii : (asciiBytes result).all (· < 128) = true := by
      rw [asciiBytes, List.all_map, List.all_eq_true]
      intro character membership
      have small := storable.ascii character membership
      apply decide_eq_true
      rw [UInt8.lt_iff_toNat_lt, UInt8.toNat_ofNat', Nat.mod_eq_of_lt (by omega)]
      exact small
    rw [if_pos ascii, ofList_map_asciiBytes storable.ascii]
    exact pure_eq_ok_iff.mpr ⟨rfl, rfl⟩

theorem times_succ (read : Reader α) (count : Nat) (results : List α) :
    times read (count + 1) results =
      read >>= fun result => times read count (result :: results) := by
  funext cursor
  change _ = Except.bind (read cursor) fun step => times read count (step.1 :: results) step.2
  simp only [times]
  cases read cursor <;> rfl

theorem times_eq_ok_iff {read : Reader α} {layout : α → List UInt8} {valid : α → Prop}
    (reads : Reads read layout valid) {count : Nat} {results final : List α}
    {cursor after : Cursor} :
    times read count results cursor = .ok (final, after) ↔
      ∃ items, final = results.reverse ++ items ∧ items.length = count ∧
        (∀ item ∈ items, valid item) ∧ cursor.Passes (items.flatMap layout) after := by
  induction count generalizing results cursor with
  | zero =>
      rw [times, Except.ok.injEq, Prod.mk.injEq]
      constructor
      · rintro ⟨rfl, rfl⟩
        exact ⟨[], by simp, rfl, by simp, Cursor.passes_nil_iff.mpr rfl⟩
      · rintro ⟨items, rfl, empty, -, passes⟩
        rw [List.length_eq_zero_iff] at empty
        subst empty
        exact ⟨by simp, (Cursor.passes_nil_iff.mp passes).symm⟩
  | succ count inductionHypothesis =>
      rw [times_succ, bind_eq_ok_iff]
      constructor
      · rintro ⟨result, middle, first, later⟩
        obtain ⟨items, rfl, rfl, valids, passes⟩ := inductionHypothesis.mp later
        have parts := (reads _ _ _).mp first
        refine ⟨result :: items, by simp, rfl, ?_, ?_⟩
        · exact List.forall_mem_cons.mpr ⟨parts.1, valids⟩
        · exact Cursor.passes_append_iff.mpr ⟨middle, parts.2, passes⟩
      · rintro ⟨items, rfl, length, valids, passes⟩
        cases items with
        | nil => contradiction
        | cons item items =>
            rw [List.forall_mem_cons] at valids
            obtain ⟨middle, first, later⟩ := Cursor.passes_append_iff.mp passes
            refine ⟨item, middle, (reads _ _ _).mpr ⟨valids.1, first⟩, ?_⟩
            exact inductionHypothesis.mpr
              ⟨items, by simp, Nat.succ.inj length, valids.2, later⟩

end Reader

end Cohort
