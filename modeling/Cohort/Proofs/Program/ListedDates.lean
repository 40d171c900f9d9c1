import Cohort.Proofs.Facts.Birth
import Cohort.Proofs.Program.Listing

/-!
# Listed dates are read back

Each value of a program stands in the listing behind the opcode of its test.  A date in a listing is
text in the format of RFC 3339, so the same timestamp comes from it as a binding and as a date of
birth.
-/

namespace Cohort

namespace Timestamp

/-- The timestamps that RFC 3339 can express. -/
structure Expressible (timestamp : Timestamp) : Prop where
  year : 0 ≤ timestamp.date.year
  hours : timestamp.offset.parts.1.natAbs ≤ 23
  seconds : timestamp.offset.parts.2.2 = 0

theorem isRfc3339_iff (timestamp : Timestamp) :
    timestamp.isRfc3339 = true ↔ timestamp.Expressible := by
  simp only [isRfc3339, Bool.and_eq_true, decide_eq_true_eq, beq_iff_eq]
  constructor
  · intro checked
    exact ⟨checked.1.1, checked.1.2, checked.2⟩
  · intro expressible
    exact ⟨⟨expressible.year, expressible.hours⟩, expressible.seconds⟩

/-- A text gives a timestamp wherever it is read: bound to a name, or as the date of the first
birth of an animal. -/
structure ReadFrom (timestamp : Timestamp) (text : String) : Prop where
  read : ofText? text = some timestamp
  bound (name : String) :
    Bindings.ofJson (.object [(name, .string text)]) =
      .ok ((∅ : Bindings).insert name (.date timestamp))
  recorded (species : Int32) (later : List LifeEvent) :
    (later.foldl Animal.withEvent
      ((Animal.ofSpecies species).withEvent (.birthDated text))).birth = .ok timestamp

theorem ReadFrom.of_read {timestamp : Timestamp} {text : String}
    (read : ofText? text = some timestamp) : timestamp.ReadFrom text where
  read := read
  bound name := by
    apply Bindings.ofJson_singleton
    rw [Bound.ofJson?, read]
    rfl
  recorded species later := Animal.birth_of_dated species read later

theorem readFrom_text {timestamp : Timestamp} (expressible : timestamp.Expressible) :
    timestamp.ReadFrom timestamp.text :=
  .of_read (ofText?_text (timestamp.isRfc3339_iff.mpr expressible))

theorem OnTick.expressible {timestamp : Timestamp} (onTick : timestamp.OnTick) :
    timestamp.Expressible :=
  timestamp.isRfc3339_iff.mp onTick.isRfc3339

end Timestamp

/-!
## Values in listings
-/

theorem exists_unlines_of_mem {row : List Char} {rows : List (List Char)} (listed : row ∈ rows) :
    ∃ before after, unlines rows = before ++ (row ++ ['\n']) ++ after := by
  obtain ⟨first, second, rfl⟩ := List.append_of_mem listed
  refine ⟨unlines first, unlines second, ?_⟩
  rw [unlines_append, unlines_cons]
  simp

/-- Every test has its row, at the level of the block that it stands in. -/
theorem Condition.exists_row_of_mem_tests {kind : Test} {value : Value Timestamp}
    {condition : Condition Timestamp} (leaf : (kind, value) ∈ condition.tests) (level : Nat) :
    ∃ depth, row depth (.test kind) value.listing.toList ∈ condition.rows level := by
  induction condition using Condition.induction generalizing level with
  | test other operand =>
      cases List.mem_singleton.mp leaf
      exact ⟨level, List.mem_singleton.mpr rfl⟩
  | all children inductionHypothesis =>
      rw [tests_all] at leaf
      obtain ⟨child, inChildren, inChild⟩ := List.mem_flatMap.mp leaf
      obtain ⟨depth, listed⟩ := inductionHypothesis child inChildren inChild (level + 1)
      refine ⟨depth, ?_⟩
      rw [rows_all]
      exact .tail _ (List.mem_flatMap.mpr ⟨child, inChildren, listed⟩)

namespace Program

theorem exists_listing_of_mem_tests {program : Program} {kind : Test} {value : Value Timestamp}
    (leaf : (kind, value) ∈ program.root.tests) :
    ∃ before after : String, program.listing =
      before ++ ((Opcode.test kind).text ++ " " ++ value.listing ++ "\n") ++ after := by
  obtain ⟨depth, listed⟩ := Condition.exists_row_of_mem_tests leaf 0
  have inProgram : Condition.row depth (.test kind) value.listing.toList ∈ program.rows := by
    simp [rows, listed]
  obtain ⟨before, after, split⟩ := exists_unlines_of_mem inProgram
  refine ⟨.ofList (before ++ List.replicate (2 * depth) ' '), .ofList after, ?_⟩
  rw [← String.toList_inj, toList_listing, split]
  simp [Condition.row, labelled]

/-- The text of a date in a listing gives the timestamp back, whatever its fraction of a second and
its offset are.  Every date of a loaded program has such a text. -/
theorem readFrom_listed_date :
    (∀ timestamp : Timestamp, timestamp.Expressible →
      ∃ text, (Value.date timestamp).listing = "Date " ++ text ∧ timestamp.ReadFrom text) ∧
    ∀ (limits : Limits) (image : List UInt8) (program : Program),
      load limits image = .ok program →
      ∀ kind timestamp, (kind, Value.date timestamp) ∈ program.root.tests →
        timestamp.Expressible ∧ ∃ before text after,
          program.listing =
            before ++ ((Opcode.test kind).text ++ " " ++ ("Date " ++ text) ++ "\n") ++ after ∧
          timestamp.ReadFrom text := by
  constructor
  · intro timestamp expressible
    exact ⟨timestamp.text, rfl, Timestamp.readFrom_text expressible⟩
  · intro limits image program loaded kind timestamp leaf
    have fits := (layout_of_load loaded).2.1.root.values _ leaf
    have expressible := Timestamp.OnTick.expressible fits
    obtain ⟨before, after, listed⟩ := exists_listing_of_mem_tests leaf
    exact ⟨expressible, before, timestamp.text, after, listed, Timestamp.readFrom_text expressible⟩

/-- A moment of year 4 on a clock that is half an hour behind, with zeros at the end of its
fraction of a second. -/
def behindSample : Timestamp where
  date := ⟨4, 366, by decide, by decide⟩
  time := .ofNanoseconds 86399120000000
  offset := { seconds := -1800 }

theorem readFrom_listed_samples :
    behindSample.Expressible ∧
    (Value.date behindSample).listing = "Date 0004-12-31T23:59:59.12-00:30" ∧
    behindSample.ReadFrom "0004-12-31T23:59:59.12-00:30" ∧
    load ⟨3, 1⟩ datedSample.layout = .ok datedSample ∧
    ∃ before text after, datedSample.listing =
        before ++ ("BORN_AFTER " ++ ("Date " ++ text) ++ "\n") ++ after ∧
      firstTick.ReadFrom text := by
  have expressible : behindSample.Expressible := ⟨by decide, by decide, by decide⟩
  have listed : (Value.date behindSample).listing = "Date 0004-12-31T23:59:59.12-00:30" := rfl
  obtain ⟨text, listing, readFrom⟩ := readFrom_listed_date.1 behindSample expressible
  have same : text = "0004-12-31T23:59:59.12-00:30" := by
    rw [listed] at listing
    exact (String.append_right_inj "Date ").mp listing.symm
  have loaded : load ⟨3, 1⟩ datedSample.layout = .ok datedSample :=
    load_layout fits_datedSample wellFormed_datedSample
  refine ⟨expressible, listed, same ▸ readFrom, loaded, ?_⟩
  exact (readFrom_listed_date.2 _ _ _ loaded .bornAfter firstTick (.head _)).2

end Program

end Cohort
