import Cohort.Proofs.Bytecode.Recompilation

/-!
# Scripts of programs

The script of a program holds, for every moment in it, the date that starts there in UTC.  It is
found only where the clock that the moment is written on shows this date: a clock behind UTC still
shows the day before, and one that is a day ahead shows the next.
-/

namespace Cohort

namespace Timestamp

/-- Whether the clock of a timestamp shows the date that it is in UTC when a day starts there. -/
def IsDayClock (timestamp : Timestamp) : Prop :=
  0 ≤ timestamp.offset.seconds ∧ timestamp.offset.seconds < 86400

instance (timestamp : Timestamp) : Decidable timestamp.IsDayClock :=
  inferInstanceAs (Decidable (_ ∧ _))

/-- The date that starts in UTC at a moment. -/
def startedDate? (instant : Int) : Option Date :=
  if instant % nanosecondsPerDay = 0 then Date.ofDayNumber? (instant / nanosecondsPerDay) else none

theorem startedDate?_eq_some_iff {instant : Int} {date : Date} :
    startedDate? instant = some date ↔ instant = date.midnight.instant := by
  rw [Date.instant_midnight]
  unfold startedDate? nanosecondsPerDay
  constructor
  · intro found
    split at found
    next whole =>
      have day := Date.dayNumber_of_ofDayNumber?_eq_some found
      omega
    next => contradiction
  · rintro rfl
    rw [if_pos (by omega), Int.mul_ediv_cancel _ (by decide), Date.ofDayNumber?_dayNumber]

/-- The local date is the one that starts in UTC if the clock shows that date. -/
theorem midnightDate?_of_isDayClock {timestamp : Timestamp} (dayClock : timestamp.IsDayClock) :
    timestamp.midnightDate? = startedDate? timestamp.instant := by
  obtain ⟨notBehind, lessThanDay⟩ := dayClock
  have time := timestamp.time.nanoseconds_lt
  unfold midnightDate?
  by_cases same : timestamp.instant = timestamp.date.midnight.instant
  · rw [if_pos same, startedDate?_eq_some_iff.mpr same]
  · rw [if_neg same]
    -- A whole day away from UTC the local time would have to be that far away as well.
    have broken : ¬timestamp.instant % nanosecondsPerDay = 0 := by
      rw [Date.instant_midnight] at same
      unfold instant nanosecondsPerDay at *
      omega
    exact (if_neg broken).symm

theorem isDayClock_of_midnightDate? {timestamp : Timestamp} {date : Date}
    (found : timestamp.midnightDate? = some date) : timestamp.IsDayClock := by
  have time := timestamp.time.nanoseconds_lt
  unfold midnightDate? at found
  split at found
  next same =>
    rw [Date.instant_midnight] at same
    unfold instant at same
    unfold IsDayClock
    omega
  next => cases found

theorem midnightDate?_eq_some_iff {timestamp : Timestamp} {date : Date} :
    timestamp.midnightDate? = some date ↔
      timestamp.IsDayClock ∧ timestamp.instant = date.midnight.instant := by
  constructor
  · intro found
    have dayClock := isDayClock_of_midnightDate? found
    rw [midnightDate?_of_isDayClock dayClock] at found
    exact ⟨dayClock, startedDate?_eq_some_iff.mp found⟩
  · rintro ⟨dayClock, start⟩
    rw [midnightDate?_of_isDayClock dayClock]
    exact startedDate?_eq_some_iff.mpr start

end Timestamp

theorem Parameter.isSome_declaration?_iff {parameter : Parameter} :
    parameter.declaration?.isSome ↔ parameter.type = .int32 := by
  obtain ⟨name, type⟩ := parameter
  cases type <;> simp [declaration?]

namespace Program

/-- Whether two programs are the same but for the clocks that their moments are written on. -/
structure SameMeaning (first second : Program) : Prop where
  version : first.version = second.version
  name : first.name = second.name
  parameters : first.parameters = second.parameters
  root : first.root.map Timestamp.instant = second.root.map Timestamp.instant

/-- What holds of the moments that a program compares the date of birth with. -/
def AllMoments (property : Timestamp → Prop) (program : Program) : Prop :=
  ∀ leaf ∈ program.root.tests, ∀ timestamp, leaf.2 = .date timestamp → property timestamp

/-- Whether a script says what a program says, every date standing for its start in UTC. -/
structure Expresses (script : Script) (program : Program) : Prop where
  name : script.name = program.name
  parameters : script.parameters.map Declaration.parameter = program.parameters
  root : (script.root.map fun date => date.midnight.instant) = program.root.map Timestamp.instant

theorem parameter_injective {first second : Declaration}
    (same : first.parameter = second.parameter) : first = second := by
  obtain ⟨firstName, ⟨⟩⟩ := first
  obtain ⟨secondName, ⟨⟩⟩ := second
  cases same
  rfl

/-- What a program says can be said by one script only. -/
theorem Expresses.unique {script other : Script} {program : Program}
    (expresses : Expresses script program) (otherExpresses : Expresses other program) :
    script = other := by
  have parameters : script.parameters = other.parameters := by
    apply List.map_injective_iff.mpr (fun _ _ => parameter_injective)
    rw [expresses.parameters, otherExpresses.parameters]
  have restored : ∀ root : Condition Date,
      (root.map fun date => date.midnight.instant).traverse Timestamp.startedDate? = some root :=
    Condition.traverse_map fun _ => Timestamp.startedDate?_eq_some_iff.mpr rfl
  have root : script.root = other.root := by
    have same := restored script.root
    rw [expresses.root, ← otherExpresses.root, restored other.root] at same
    exact (Option.some.inj same).symm
  obtain ⟨name, declarations, condition⟩ := script
  rw [Script.mk.injEq]
  exact ⟨expresses.name.trans otherExpresses.name.symm, parameters, root⟩

theorem isSome_traverse_midnightDate?_iff {root : Condition Timestamp} :
    (root.traverse Timestamp.midnightDate?).isSome ↔
      ∀ leaf ∈ root.tests, ∀ timestamp, leaf.2 = .date timestamp →
        timestamp.IsDayClock ∧ ∃ date : Date, timestamp.instant = date.midnight.instant := by
  rw [Condition.isSome_traverse_iff]
  apply forall₂_congr
  rintro ⟨kind, value⟩ -
  cases value with
  | reference name => simp [Value.traverse]
  | species id => simp [Value.traverse]
  | date timestamp =>
      rw [Value.traverse, Option.isSome_map, Option.isSome_iff_exists]
      simp only [Timestamp.midnightDate?_eq_some_iff, exists_and_left]
      constructor
      · rintro starts _ ⟨⟩
        exact starts
      · exact fun starts => starts timestamp rfl

/-- A script is found exactly if all parameters are numbers, and all moments are days that start in
UTC and are written on a clock that shows them. -/
theorem isSome_script?_iff {program : Program} :
    program.script?.isSome ↔
      (∀ parameter ∈ program.parameters, parameter.type = .int32) ∧
        program.AllMoments fun timestamp =>
          timestamp.IsDayClock ∧ ∃ date : Date, timestamp.instant = date.midnight.instant := by
  have parameters : (program.parameters.mapM Parameter.declaration?).isSome ↔
      ∀ parameter ∈ program.parameters, parameter.type = .int32 := by
    rw [Condition.isSome_mapM_iff]
    exact forall₂_congr fun parameter _ => Parameter.isSome_declaration?_iff
  rw [← parameters, AllMoments, ← isSome_traverse_midnightDate?_iff, script?]
  cases program.parameters.mapM Parameter.declaration? with
  | none => simp
  | some declarations => cases program.root.traverse Timestamp.midnightDate? <;> simp

/-- Where every clock shows the date that starts, only the moments meant are looked at. -/
theorem traverse_midnightDate?_of_isDayClock {root : Condition Timestamp}
    (dayClocks : ∀ leaf ∈ root.tests, ∀ timestamp, leaf.2 = .date timestamp →
      timestamp.IsDayClock) :
    root.traverse Timestamp.midnightDate? =
      (root.map Timestamp.instant).traverse Timestamp.startedDate? := by
  rw [Condition.traverse_of_map]
  apply Condition.traverse_congr
  rintro ⟨kind, value⟩ membership
  cases value with
  | reference name => rfl
  | species id => rfl
  | date timestamp =>
      rw [Value.traverse, Value.traverse,
        Timestamp.midnightDate?_of_isDayClock (dayClocks _ membership timestamp rfl)]

theorem expresses_of_script? {program : Program} {script : Script}
    (restored : program.script? = some script) : Expresses script program := by
  have allMoments := (isSome_script?_iff.mp (Option.isSome_of_eq_some restored)).2
  obtain ⟨name, declared, dated⟩ := script?_eq_some_iff.mp restored
  rw [traverse_midnightDate?_of_isDayClock fun leaf membership timestamp same =>
    (allMoments leaf membership timestamp same).1] at dated
  refine ⟨name, map_parameter_of_mapM_declaration? declared, ?_⟩
  refine Condition.map_of_traverse (fun leaf membership original => ?_) dated
  refine Value.map_of_traverse fun instant date _ found => ?_
  exact (Timestamp.startedDate?_eq_some_iff.mp found).symm

theorem script?_eq_of_sameMeaning {first second : Program} (same : SameMeaning first second)
    (firstClocks : first.AllMoments Timestamp.IsDayClock)
    (secondClocks : second.AllMoments Timestamp.IsDayClock) : first.script? = second.script? := by
  rw [script?, script?, same.name, same.parameters,
    traverse_midnightDate?_of_isDayClock firstClocks,
    traverse_midnightDate?_of_isDayClock secondClocks, same.root]

/-- The script of a program is found exactly if all parameters are numbers and all moments are days
that start in UTC, written on clocks that show them, and it says what the program says.  Programs
with the same meaning therefore have the same script if both have one, and always where every clock
shows the date that it is in UTC when a day starts there. -/
theorem script?_eq_of_meaning (program : Program) :
    (program.script?.isSome ↔
      (∀ parameter ∈ program.parameters, parameter.type = .int32) ∧
        program.AllMoments fun timestamp =>
          timestamp.IsDayClock ∧ ∃ date : Date, timestamp.instant = date.midnight.instant) ∧
    (∀ script, program.script? = some script → Expresses script program) ∧
    ∀ other, SameMeaning program other →
      (∀ script otherScript, program.script? = some script → other.script? = some otherScript →
        script = otherScript) ∧
      (program.AllMoments Timestamp.IsDayClock → other.AllMoments Timestamp.IsDayClock →
        program.script? = other.script?) := by
  refine ⟨isSome_script?_iff, fun script => expresses_of_script?, fun other same => ?_⟩
  constructor
  · intro script otherScript restored otherRestored
    have expresses := expresses_of_script? restored
    have otherExpresses := expresses_of_script? otherRestored
    rw [Expresses.unique expresses]
    exact ⟨otherExpresses.name.trans same.name.symm,
      otherExpresses.parameters.trans same.parameters.symm,
      otherExpresses.root.trans same.root.symm⟩
  · exact script?_eq_of_sameMeaning same

/-- A program that asks for a birth before a moment. -/
def bornBeforeSample (timestamp : Timestamp) : Program :=
  ⟨1, "P", [], .all [.test .bornBefore (.date timestamp)]⟩

theorem sameMeaning_bornBeforeSample {first second : Timestamp}
    (same : first.instant = second.instant) :
    SameMeaning (bornBeforeSample first) (bornBeforeSample second) := by
  refine ⟨rfl, rfl, rfl, ?_⟩
  simp [bornBeforeSample, Value.map, same]

theorem allMoments_bornBeforeSample_iff {property : Timestamp → Prop} {timestamp : Timestamp} :
    (bornBeforeSample timestamp).AllMoments property ↔ property timestamp := by
  simp [AllMoments, bornBeforeSample]

def newYear : Date :=
  ⟨2019, 1, by decide, by decide⟩

/-- The start of the year in UTC on a clock that is two hours ahead, which shows the same date. -/
def newYearAhead : Timestamp :=
  ⟨newYear, .ofNanoseconds 7200000000000, { seconds := 7200 }⟩

/-- The start of the year in UTC on a clock that is an hour behind, which shows the day before. -/
def newYearBehind : Timestamp :=
  ⟨⟨2018, 365, by decide, by decide⟩, .ofNanoseconds 82800000000000, { seconds := -3600 }⟩

theorem script?_newYearAhead :
    SameMeaning (bornBeforeSample newYear.midnight) (bornBeforeSample newYearAhead) ∧
      newYear.midnight.IsDayClock ∧ newYearAhead.IsDayClock ∧
      ∃ script otherScript, (bornBeforeSample newYear.midnight).script? = some script ∧
        (bornBeforeSample newYearAhead).script? = some otherScript ∧ script = otherScript ∧
        Expresses script (bornBeforeSample newYear.midnight) := by
  have same : SameMeaning (bornBeforeSample newYear.midnight) (bornBeforeSample newYearAhead) :=
    sameMeaning_bornBeforeSample (by decide)
  have clock : newYear.midnight.IsDayClock := by decide
  have clockAhead : newYearAhead.IsDayClock := by decide
  have restored : (bornBeforeSample newYear.midnight).script? =
      some ⟨"P", [], .all [.test .bornBefore (.date newYear)]⟩ := rfl
  obtain ⟨-, expresses, others⟩ := script?_eq_of_meaning (bornBeforeSample newYear.midnight)
  obtain ⟨unique, equal⟩ := others _ same
  have restoredAhead := equal (allMoments_bornBeforeSample_iff.mpr clock)
    (allMoments_bornBeforeSample_iff.mpr clockAhead)
  rw [restored] at restoredAhead
  exact ⟨same, clock, clockAhead, _, _, restored, restoredAhead.symm,
    unique _ _ restored restoredAhead.symm, expresses _ restored⟩

/-- A program can have no script although all its moments are days that start in UTC, and although
another program with the same meaning has one. -/
theorem script?_newYearBehind :
    newYearBehind.instant = newYear.midnight.instant ∧
      SameMeaning (bornBeforeSample newYearBehind) (bornBeforeSample newYear.midnight) ∧
      (bornBeforeSample newYearBehind).script? = none ∧
      (bornBeforeSample newYear.midnight).script? =
        some ⟨"P", [], .all [.test .bornBefore (.date newYear)]⟩ := by
  have same : newYearBehind.instant = newYear.midnight.instant := by decide
  exact ⟨same, sameMeaning_bornBeforeSample same, rfl, rfl⟩

end Program

end Cohort
