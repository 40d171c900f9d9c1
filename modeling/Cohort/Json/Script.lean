import Cohort.Json.Calendar
import Cohort.Json.Condition
import Cohort.Program.Basic

/-!
Scripts and programs as JSON.
-/

namespace Cohort

/-- In a script a date is a calendar date, and a literal number is a species. -/
def Script.valueFormat : ValueFormat Date :=
  ⟨"Species", Date.toJson, Date.ofJson?⟩

/-- In a program a date is a timestamp, and a literal number is just that. -/
def Program.valueFormat : ValueFormat Timestamp :=
  ⟨"Int", Timestamp.toJson, Timestamp.ofJson?⟩

namespace Declaration

def toJson (declaration : Declaration) : Json :=
  match declaration.kind with
  | .species => .object [("name", .string declaration.name), ("kind", .string "Species")]

/-- A kind of parameter is its name, or a choice without content. -/
def kindOfJson? : Json → Option ParameterKind
  | .string "Species" | .object [("Species", .null)] => some .species
  | _ => none

def ofJson? (value : Json) : Option Declaration := do
  match ← value.fields? ["name", "kind"] with
  | [some name, some kind] => return ⟨← name.text?, ← kindOfJson? kind⟩
  | _ => none

end Declaration

namespace Script

def toJson (script : Script) : Json :=
  .object
    [("name", .string script.name),
     ("parameters", .array (script.parameters.map Declaration.toJson)),
     ("root", script.root.toJson valueFormat)]

def ofJson? (value : Json) : Option Script := do
  match ← value.fields? ["name", "parameters", "root"] with
  | [some name, some parameters, some root] =>
      let name ← name.text?
      let parameters ← parameters.itemsWith? Declaration.ofJson?
      let root ← Condition.ofJson? valueFormat root
      return ⟨name, parameters, root⟩
  | _ => none

end Script

namespace Parameter

def toJson (parameter : Parameter) : Json :=
  .object [("name", .string parameter.name), ("ty", .string parameter.type.text)]

def ofJson? (value : Json) : Option Parameter := do
  match ← value.fields? ["name", "ty"] with
  | [some name, some type] =>
      let name ← name.text?
      let typeName ← type.text?
      let type ← [ValueType.reference, .date, .int32].find? (·.text == typeName)
      return ⟨name, type⟩
  | _ => none

end Parameter

namespace Program

def toJson (program : Program) : Json :=
  .object
    [("version", .ofNat program.version.toNat),
     ("name", .string program.name),
     ("parameters", .array (program.parameters.map Parameter.toJson)),
     ("root", program.root.toJson valueFormat)]

def ofJson? (value : Json) : Option Program := do
  match ← value.fields? ["version", "name", "parameters", "root"] with
  | [some version, some name, some parameters, some root] =>
      let version ← version.natural? 65536
      let name ← name.text?
      let parameters ← parameters.itemsWith? Parameter.ofJson?
      let root ← Condition.ofJson? valueFormat root
      return ⟨.ofNat version, name, parameters, root⟩
  | _ => none

end Program

end Cohort
