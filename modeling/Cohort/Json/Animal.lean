import Cohort.Animal
import Cohort.Json.Shape

/-!
Animals as JSON.  An animal may leave out its events, and an event its fields.
-/

namespace Cohort

namespace LifeEvent

def toJson (event : LifeEvent) : Json :=
  .object
    [("name", .string event.name),
     ("fields", .object (event.fields.toList.map fun (field, value) => (field, .string value)))]

def ofJson? (value : Json) : Option LifeEvent := do
  match ← value.fields? ["name", "fields"] with
  | [some name, fields] =>
      let name ← name.text?
      match fields with
      | none => return ofName name
      | some fields => return ⟨name, ← fields.entriesWith? Json.text?⟩
  | _ => none

end LifeEvent

namespace Animal

def toJson (animal : Animal) : Json :=
  .object
    [("species_id", .ofInt animal.species.toInt),
     ("life_events", .array (animal.lifeEvents.map LifeEvent.toJson))]

def ofJson? (value : Json) : Option Animal := do
  match ← value.fields? ["species_id", "life_events"] with
  | [some species, lifeEvents] =>
      let species := Int32.ofInt (← species.whole? (-2147483648) 2147483647)
      match lifeEvents with
      | none => return ofSpecies species
      | some lifeEvents => return ⟨species, ← lifeEvents.itemsWith? LifeEvent.ofJson?⟩
  | _ => none

end Animal

end Cohort
