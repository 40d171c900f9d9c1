import Cohort.Calendar.Rfc3339
import Cohort.Fact
import Cohort.NameMap

/-!
Animals and their life events.

The date of birth of an animal is the `date` field of its first event with the name `Born`.
-/

namespace Cohort

structure LifeEvent where
  name : String
  fields : NameMap String

namespace LifeEvent

def bornName : String :=
  "Born"

def dateField : String :=
  "date"

def ofName (name : String) : LifeEvent :=
  ⟨name, ∅⟩

def withField (event : LifeEvent) (field value : String) : LifeEvent :=
  ⟨event.name, event.fields.insert field value⟩

end LifeEvent

structure Animal where
  species : Int32
  lifeEvents : List LifeEvent

namespace Animal

def ofSpecies (species : Int32) : Animal :=
  ⟨species, []⟩

def withEvent (animal : Animal) (event : LifeEvent) : Animal :=
  ⟨animal.species, animal.lifeEvents ++ [event]⟩

/-- An animal of which only the birth on a date is recorded. -/
def bornOn (species : Int32) (date : Date) : Animal :=
  (ofSpecies species).withEvent
    ((LifeEvent.ofName LifeEvent.bornName).withField LifeEvent.dateField date.text)

/-- The date of birth, if the first event that records a birth holds one. -/
def birth (animal : Animal) : Except FactFailure Timestamp :=
  match animal.lifeEvents.find? (·.name == LifeEvent.bornName) with
  | none => .error (.missingEvent LifeEvent.bornName)
  | some event =>
      match event.fields[LifeEvent.dateField]? with
      | none => .error (.missingField LifeEvent.bornName LifeEvent.dateField)
      | some text =>
          match Timestamp.ofText? text with
          | none => .error (.invalidValue LifeEvent.bornName LifeEvent.dateField text)
          | some timestamp => .ok timestamp

def subject (animal : Animal) : Subject :=
  ⟨animal.species, animal.birth⟩

end Animal

end Cohort
