import Cohort.Bytecode.Vocabulary
import Cohort.Calendar.Rfc3339
import Cohort.Json.Basic

/-!
The values that a caller gives to the parameters of a program.
-/

namespace Cohort

/-- The value of a parameter. -/
inductive Bound where
  | int32 (value : Int32)
  | date (timestamp : Timestamp)
deriving DecidableEq

namespace Bound

def type : Bound → ValueType
  | int32 _ => .int32
  | date _ => .date

def ofDate (date : Date) : Bound :=
  .date date.midnight

/-- Whether two values mean the same: equal numbers, or the same moment. -/
def agrees : Bound → Bound → Bool
  | int32 first, int32 second => first == second
  | date first, date second => first.instant == second.instant
  | int32 _, date _ | date _, int32 _ => false

end Bound

abbrev Bindings :=
  NameMap Bound

inductive BindingsError where
  | notObject
  /-- A member is neither a 32-bit number nor a date. -/
  | unsuitable (name : String) (value : Json)

def BindingsError.message : BindingsError → String
  | notObject => "invalid bindings: bindings must be a JSON object"
  | unsuitable name value =>
      "invalid bindings: '" ++ name ++ "' is neither a 32-bit integer nor a date: "
        ++ value.compact

/-- The value that a JSON value gives: a whole number of 32 bits, or the text of a date. -/
def Bound.ofJson? : Json → Option Bound
  | .number (.whole value) =>
      if -2147483648 ≤ value ∧ value ≤ 2147483647 then some (.int32 (.ofInt value)) else none
  | .string text => (Timestamp.ofText? text).map .date
  | _ => none

namespace Bindings

/-- Bind the members of an object in the order of their names, up to the first that is
unsuitable. -/
def bindMembers : List (String × Json) → Bindings → Except BindingsError Bindings
  | [], bindings => .ok bindings
  | (name, value) :: members, bindings =>
      match Bound.ofJson? value with
      | none => .error (.unsuitable name value)
      | some bound => bindMembers members (bindings.insert name bound)

def ofJson : Json → Except BindingsError Bindings
  | .object members => bindMembers (NameMap.ofEntries members).toList ∅
  | _ => .error .notObject

end Bindings

end Cohort
