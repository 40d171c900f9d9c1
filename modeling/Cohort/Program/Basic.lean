import Cohort.Bytecode.Vocabulary
import Cohort.Calendar.Timestamp
import Cohort.Script.Basic

/-!
Loaded programs.

A program is what bytecode holds: a script whose parameters have types and whose dates are
timestamps.
-/

namespace Cohort

structure Parameter where
  name : String
  type : ValueType
deriving DecidableEq

/-- A script as loaded from bytecode. -/
structure Program where
  version : UInt16
  name : String
  /-- The parameters, in the order of their declaration. -/
  parameters : List Parameter
  root : Condition Timestamp

/-- The declaration of a parameter in a script; scripts can only declare species. -/
def Parameter.declaration? (parameter : Parameter) : Option Declaration :=
  match parameter.type with
  | .int32 => some ⟨parameter.name, .species⟩
  | .date | .reference => none

/-- The script that a program was compiled from.  There is none if a parameter is not a number
or a date is not the start of a day in UTC. -/
def Program.script? (program : Program) : Option Script := do
  let parameters ← program.parameters.mapM Parameter.declaration?
  let root ← program.root.traverse Timestamp.midnightDate?
  return ⟨program.name, parameters, root⟩

end Cohort
