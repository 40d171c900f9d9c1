import Cohort.Condition
import Cohort.Json.Shape

/-!
Conditions as JSON.

A condition and a value are choices, named for what they are.  How a date is written, and what a
literal number is called, depends on where the condition stands.
-/

namespace Cohort

/-- How the values of a condition are written. -/
structure ValueFormat (δ : Type) where
  /-- The name of the alternative that holds a literal number. -/
  numberName : String
  dateToJson : δ → Json
  dateOfJson? : Json → Option δ

variable {δ : Type}

def Json.choice (name : String) (content : Json) : Json :=
  .object [(name, content)]

def Test.jsonName : Test → String
  | .bornAfter => "BornAfter"
  | .bornBefore => "BornBefore"
  | .speciesIs => "SpeciesIs"

def Test.ofJsonName? (name : String) : Option Test :=
  [Test.bornAfter, .bornBefore, .speciesIs].find? (·.jsonName == name)

namespace Value

def toJson (format : ValueFormat δ) : Value δ → Json
  | reference name => .choice "Param" (.string name)
  | date day => .choice "Date" (format.dateToJson day)
  | species id => .choice format.numberName (.ofInt id.toInt)

def ofJson? (format : ValueFormat δ) : Json → Option (Value δ)
  | .object [(name, content)] =>
      if name = "Param" then
        content.text?.map reference
      else if name = "Date" then
        (format.dateOfJson? content).map date
      else if name = format.numberName then
        (content.whole? (-2147483648) 2147483647).map fun id => species (.ofInt id)
      else
        none
  | _ => none

end Value

namespace Condition

mutual

/-- A condition as a choice of what it is: a block with its children or a test with its value. -/
def toJson (format : ValueFormat δ) : Condition δ → Json
  | all children => .choice "And" (.array (allToJson format children []))
  | test kind value => .choice kind.jsonName (value.toJson format)

def allToJson (format : ValueFormat δ) :
    List (Condition δ) → (finished : List Json) → List Json
  | [], finished => finished.reverse
  | child :: siblings, finished => allToJson format siblings (child.toJson format :: finished)

end

mutual

def ofJson? (format : ValueFormat δ) : Json → Option (Condition δ)
  | .object [(name, content)] =>
      match name, content with
      | "And", .array items => (allOfJson? format items []).map all
      | name, content => do
          let kind ← Test.ofJsonName? name
          let value ← Value.ofJson? format content
          return test kind value
  | _ => none

def allOfJson? (format : ValueFormat δ) :
    List Json → (finished : List (Condition δ)) → Option (List (Condition δ))
  | [], finished => some finished.reverse
  | item :: items, finished =>
      match ofJson? format item with
      | none => none
      | some child => allOfJson? format items (child :: finished)

end

end Condition

end Cohort
