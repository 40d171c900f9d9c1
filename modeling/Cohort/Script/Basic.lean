import Cohort.Calendar.Date
import Cohort.Condition

/-!
Scripts: a name, the parameters that a caller has to bind, and one condition.
-/

namespace Cohort

inductive ParameterKind where
  | species
deriving DecidableEq

structure Declaration where
  name : String
  kind : ParameterKind
deriving DecidableEq

/-- A script as written: its dates are calendar dates. -/
structure Script where
  name : String
  /-- The parameters, in the order of their declaration. -/
  parameters : List Declaration
  root : Condition Date

def Script.declaredNames (script : Script) : List String :=
  script.parameters.map Declaration.name

end Cohort
