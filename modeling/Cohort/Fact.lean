import Cohort.Calendar.Timestamp

/-!
The facts that a program asks for, wherever they come from.
-/

namespace Cohort

inductive FactFailure where
  | missingEvent (event : String)
  | missingField (event field : String)
  | invalidValue (event field value : String)
  /-- The source of facts gives a reason of its own. -/
  | provider (reason : String)
deriving DecidableEq

def FactFailure.message : FactFailure → String
  | missingEvent event => "no '" ++ event ++ "' life event recorded"
  | missingField event field => "life event '" ++ event ++ "' has no '" ++ field ++ "' field"
  | invalidValue event field value =>
      "life event '" ++ event ++ "' field '" ++ field ++ "' is not a date: '" ++ value ++ "'"
  | provider reason => "fact provider error: " ++ reason

/-- What is known about an animal. -/
structure Subject where
  species : Int32
  birth : Except FactFailure Timestamp

end Cohort
