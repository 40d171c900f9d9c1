import Cohort.Animal
import Cohort.Bindings
import Cohort.Proofs.Calendar.Rfc3339
import Mathlib.Logic.Relation

/-!
# Records of births

The date of birth of an animal is decided by the first event of its history that has the name
`Born`, and of this event by the field `date` alone.  A date that is recorded there, or bound to a
name, is read back as its start in UTC.
-/

namespace Cohort

/-!
## Dates as bindings
-/

theorem NameMap.toList_singleton {β : Type} (name : String) (value : β) :
    (ofEntries [(name, value)]).toList = [(name, value)] := by
  have found : (name, value) ∈ (ofEntries [(name, value)]).toList := by
    rw [Std.ExtTreeMap.mem_toList_iff_getElem?_eq_some]
    exact Std.ExtTreeMap.getElem?_insert_self
  have single : (ofEntries [(name, value)]).toList.length = 1 := by
    simp [ofEntries, Std.ExtTreeMap.length_toList, Std.ExtTreeMap.size_insert]
  obtain ⟨entry, only⟩ := List.length_eq_one_iff.mp single
  rw [only, List.mem_singleton] at found
  rw [only, found]

/-- The only member of an object is bound to what its value gives. -/
theorem Bindings.ofJson_singleton {name : String} {value : Json} {bound : Bound}
    (suitable : Bound.ofJson? value = some bound) :
    ofJson (.object [(name, value)]) = .ok ((∅ : Bindings).insert name bound) := by
  rw [ofJson, NameMap.toList_singleton, bindMembers, suitable]
  rfl

/-!
## Histories
-/

/-- A birth of which only a date is recorded. -/
def LifeEvent.birthDated (text : String) : LifeEvent :=
  (ofName bornName).withField dateField text

theorem LifeEvent.fields_birthDated (text : String) :
    (birthDated text).fields[dateField]? = some text :=
  Std.ExtTreeMap.getElem?_insert_self

/-- What the first birth of a history has for a date: nothing if there is no birth. -/
def birthRecord? (events : List LifeEvent) : Option (Option String) :=
  (events.find? (·.name == LifeEvent.bornName)).map (·.fields[LifeEvent.dateField]?)

/-- What is read from the date of a birth, if it has one. -/
def readBirthRecord : Option (Option String) → Except FactFailure Timestamp
  | none => .error (.missingEvent LifeEvent.bornName)
  | some none => .error (.missingField LifeEvent.bornName LifeEvent.dateField)
  | some (some text) =>
      match Timestamp.ofText? text with
      | none => .error (.invalidValue LifeEvent.bornName LifeEvent.dateField text)
      | some timestamp => .ok timestamp

namespace Animal

theorem birth_eq_readBirthRecord (animal : Animal) :
    animal.birth = readBirthRecord (birthRecord? animal.lifeEvents) := by
  unfold birth birthRecord?
  cases animal.lifeEvents.find? (·.name == LifeEvent.bornName) with
  | none => rfl
  | some event =>
      dsimp only [Option.map_some]
      cases event.fields[LifeEvent.dateField]? with
      | none => rfl
      | some text => rfl

theorem birthRecord?_of_first {before : List LifeEvent} {born : LifeEvent}
    (noneBefore : ∀ event ∈ before, event.name ≠ LifeEvent.bornName)
    (named : born.name = LifeEvent.bornName) (after : List LifeEvent) :
    birthRecord? (before ++ born :: after) = some born.fields[LifeEvent.dateField]? := by
  have notFound : before.find? (·.name == LifeEvent.bornName) = none := by
    simpa using noneBefore
  simp [birthRecord?, notFound, named]

theorem birthRecord?_of_none {events : List LifeEvent}
    (noBirth : ∀ event ∈ events, event.name ≠ LifeEvent.bornName) :
    birthRecord? events = none := by
  simpa [birthRecord?] using noBirth

/-- A change in a history that has nothing to do with the date of birth: an event that is no birth
is put in or taken out, anything behind a birth is changed, or fields other than the date are. -/
inductive LeavesBirth : List LifeEvent → List LifeEvent → Prop where
  | putIn {before after : List LifeEvent} {event : LifeEvent} :
      event.name ≠ LifeEvent.bornName → LeavesBirth (before ++ after) (before ++ event :: after)
  | takenOut {before after : List LifeEvent} {event : LifeEvent} :
      event.name ≠ LifeEvent.bornName → LeavesBirth (before ++ event :: after) (before ++ after)
  | changedBehind {before after changed : List LifeEvent} {born : LifeEvent} :
      born.name = LifeEvent.bornName →
      LeavesBirth (before ++ born :: after) (before ++ born :: changed)
  | changedFields {before after : List LifeEvent} {event changed : LifeEvent} :
      changed.name = event.name →
      changed.fields[LifeEvent.dateField]? = event.fields[LifeEvent.dateField]? →
      LeavesBirth (before ++ event :: after) (before ++ changed :: after)

theorem LeavesBirth.birthRecord?_eq {events changed : List LifeEvent}
    (leaves : LeavesBirth events changed) : birthRecord? changed = birthRecord? events := by
  unfold birthRecord?
  cases leaves with
  | putIn noBirth => simp [List.find?_append, noBirth]
  | takenOut noBirth => simp [List.find?_append, noBirth]
  | changedBehind named => simp [List.find?_append, named]
  | @changedFields before after event changed sameName sameDate =>
      simp only [List.find?_append, List.find?_cons, sameName]
      cases before.find? (·.name == LifeEvent.bornName) with
      | some earlier => rfl
      | none =>
          cases event.name == LifeEvent.bornName with
          | true => simp [sameDate]
          | false => rfl

theorem birthRecord?_eq_of_changes {events changed : List LifeEvent}
    (changes : Relation.ReflTransGen LeavesBirth events changed) :
    birthRecord? changed = birthRecord? events := by
  induction changes with
  | refl => rfl
  | tail _ leaves inductionHypothesis =>
      rw [leaves.birthRecord?_eq, inductionHypothesis]

theorem lifeEvents_foldl_withEvent (animal : Animal) (later : List LifeEvent) :
    (later.foldl withEvent animal).lifeEvents = animal.lifeEvents ++ later := by
  induction later generalizing animal with
  | nil => simp
  | cons event later inductionHypothesis =>
      rw [List.foldl_cons, inductionHypothesis]
      simp [withEvent]

/-- An event with nothing but a date tells the date of birth, whatever is recorded later. -/
theorem birth_of_dated (species : Int32) {text : String} {timestamp : Timestamp}
    (read : Timestamp.ofText? text = some timestamp) (later : List LifeEvent) :
    (later.foldl withEvent ((ofSpecies species).withEvent (.birthDated text))).birth =
      .ok timestamp := by
  rw [birth_eq_readBirthRecord, lifeEvents_foldl_withEvent]
  change readBirthRecord (birthRecord? ([] ++ .birthDated text :: later)) = _
  rw [birthRecord?_of_first (List.forall_mem_nil _) rfl, LifeEvent.fields_birthDated,
    readBirthRecord, read]

/-- The first event with the name `Born` decides the date of birth, by its field `date` alone. -/
theorem birth_decided_by_first_record :
    (∀ (species : Int32) (date : Date) (later : List LifeEvent),
      (later.foldl withEvent (bornOn species date)).birth = .ok date.midnight) ∧
    (∀ (name : String) (date : Date),
      Bindings.ofJson (.object [(name, .string date.text)]) =
        .ok ((∅ : Bindings).insert name (.ofDate date))) ∧
    (∀ (species : Int32) (events changed : List LifeEvent),
      Relation.ReflTransGen LeavesBirth events changed →
      birth ⟨species, changed⟩ = birth ⟨species, events⟩) ∧
    (∀ (species : Int32) (events : List LifeEvent), (∀ event ∈ events, event.name ≠ "Born") →
      birth ⟨species, events⟩ = .error (.missingEvent "Born")) ∧
    ∀ (species : Int32) (before : List LifeEvent) (born : LifeEvent) (after : List LifeEvent),
      (∀ event ∈ before, event.name ≠ "Born") → born.name = "Born" →
      (born.fields["date"]? = none →
        birth ⟨species, before ++ born :: after⟩ = .error (.missingField "Born" "date")) ∧
      (∀ text, born.fields["date"]? = some text → Timestamp.ofText? text = none →
        birth ⟨species, before ++ born :: after⟩ = .error (.invalidValue "Born" "date" text)) ∧
      ∀ text timestamp, born.fields["date"]? = some text →
        Timestamp.ofText? text = some timestamp →
        birth ⟨species, before ++ born :: after⟩ = .ok timestamp := by
  refine ⟨?_, ?_, ?_, ?_, ?_⟩
  · intro species date later
    exact birth_of_dated species (Timestamp.ofText?_dateText date) later
  · intro name date
    apply Bindings.ofJson_singleton
    rw [Bound.ofJson?, Timestamp.ofText?_dateText]
    rfl
  · intro species events changed changes
    rw [birth_eq_readBirthRecord, birth_eq_readBirthRecord, birthRecord?_eq_of_changes changes]
  · intro species events noBirth
    rw [birth_eq_readBirthRecord, birthRecord?_of_none noBirth]
    rfl
  · intro species before born after noneBefore named
    have decided : birth ⟨species, before ++ born :: after⟩ =
        readBirthRecord (some born.fields["date"]?) := by
      rw [birth_eq_readBirthRecord, birthRecord?_of_first noneBefore named]
      rfl
    refine ⟨fun missing => ?_, fun text found unreadable => ?_,
      fun text timestamp found read => ?_⟩
    · rw [decided, missing]
      rfl
    · rw [decided, found, readBirthRecord, unreadable]
      rfl
    · rw [decided, found, readBirthRecord, read]

/-- The end of June 2023, on which the samples have their births. -/
def endOfJune : Date :=
  ⟨2023, 181, by decide, by decide⟩

/-- A birth that cannot be dated is not passed over for a later one that can. -/
theorem birth_recordSamples :
    ([LifeEvent.birthDated "soon"].foldl withEvent (bornOn 7 endOfJune)).birth =
      .ok endOfJune.midnight ∧
    Relation.ReflTransGen LeavesBirth
      [.ofName "Weaned", .birthDated "2023-06-30", .birthDated "soon"]
      [.birthDated "2023-06-30"] ∧
    birth ⟨7, [.birthDated "2023-06-30"]⟩ =
      birth ⟨7, [.ofName "Weaned", .birthDated "2023-06-30", .birthDated "soon"]⟩ ∧
    birth ⟨7, [.ofName "Weaned"]⟩ = .error (.missingEvent "Born") ∧
    birth ⟨7, [.ofName "born", .ofName "Born", .birthDated "2023-06-30"]⟩ =
      .error (.missingField "Born" "date") ∧
    birth ⟨7, [.birthDated "soon", .birthDated "2023-06-30"]⟩ =
      .error (.invalidValue "Born" "date" "soon") ∧
    birth ⟨7, [.birthDated "2023-06-30", .birthDated "soon"]⟩ = .ok endOfJune.midnight := by
  obtain ⟨extended, -, unchanged, absent, first⟩ := birth_decided_by_first_record
  have noBirth : ∀ event ∈ [LifeEvent.ofName "Weaned"], event.name ≠ "Born" := by
    simp [LifeEvent.ofName]
  have lowerCase : ∀ event ∈ [LifeEvent.ofName "born"], event.name ≠ "Born" := by
    simp [LifeEvent.ofName]
  have changes : Relation.ReflTransGen LeavesBirth
      [.ofName "Weaned", .birthDated "2023-06-30", .birthDated "soon"]
      [.birthDated "2023-06-30"] := by
    apply Relation.ReflTransGen.head (@LeavesBirth.takenOut [] _ _ (noBirth _ (.head _)))
    exact .single (@LeavesBirth.changedBehind [] _ _ _ rfl)
  refine ⟨extended 7 endOfJune _, changes, unchanged 7 _ _ changes, absent 7 _ noBirth, ?_, ?_, ?_⟩
  · exact (first 7 _ (.ofName "Born") [.birthDated "2023-06-30"] lowerCase rfl).1 rfl
  · exact (first 7 [] (.birthDated "soon") [.birthDated "2023-06-30"]
      (List.forall_mem_nil _) rfl).2.1 "soon" (LifeEvent.fields_birthDated "soon") rfl
  · exact (first 7 [] (.birthDated "2023-06-30") [.birthDated "soon"]
      (List.forall_mem_nil _) rfl).2.2 "2023-06-30" endOfJune.midnight
      (LifeEvent.fields_birthDated "2023-06-30") (Timestamp.ofText?_dateText endOfJune)

end Animal

end Cohort
