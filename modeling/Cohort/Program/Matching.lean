import Cohort.Bindings
import Cohort.Fact
import Cohort.Program.Basic

/-!
Deciding whether an animal belongs to the group that a program describes.

Every parameter needs a value of its type.  The tests then run from left to right and stop at the
first that fails.  The date of birth is looked up when the first test needs it, and only once.
-/

namespace Cohort

inductive MatchError where
  | missingBinding (name : String) (type : ValueType)
  | bindingType (name : String) (expected actual : ValueType)
  | operandType (test : Test) (expected actual : ValueType)
  | fact (failure : FactFailure)
deriving DecidableEq

def MatchError.message : MatchError → String
  | missingBinding name type =>
      "missing binding for parameter '" ++ name ++ "' of type " ++ type.text
  | bindingType name expected actual =>
      "binding for parameter '" ++ name ++ "' must be " ++ expected.text ++ ", got " ++ actual.text
  | operandType test expected actual =>
      (Opcode.test test).text ++ " expects a " ++ expected.text ++ " value, found " ++ actual.text
  | fact failure => failure.message

/-- What a run has learnt of the date of birth. -/
structure Lookups where
  /-- The date of birth, once it has been looked up. -/
  birth : Option Timestamp
  /-- How often it has been looked up. -/
  count : Nat
deriving DecidableEq

def Lookups.none : Lookups :=
  ⟨.none, 0⟩

abbrev Outcome (α : Type) :=
  Except MatchError α × Lookups

/-- The date of birth, looked up unless it is known. -/
def Subject.lookupBirth (subject : Subject) (lookups : Lookups) : Outcome Timestamp :=
  match lookups.birth with
  | some birth => (.ok birth, lookups)
  | none =>
      match subject.birth with
      | .ok birth => (.ok birth, ⟨some birth, lookups.count + 1⟩)
      | .error failure => (.error (.fact failure), ⟨none, lookups.count + 1⟩)

def Value.resolve (bindings : Bindings) (type : ValueType) :
    Value Timestamp → Except MatchError Bound
  | .species id => .ok (.int32 id)
  | .date timestamp => .ok (.date timestamp)
  | .reference name =>
      match bindings[name]? with
      | some bound => .ok bound
      | none => .error (.missingBinding name type)

def Value.resolveInt32 (bindings : Bindings) (test : Test) (value : Value Timestamp) :
    Except MatchError Int32 :=
  match value.resolve bindings .int32 with
  | .ok (.int32 number) => .ok number
  | .ok bound => .error (.operandType test .int32 bound.type)
  | .error problem => .error problem

def Value.resolveDate (bindings : Bindings) (test : Test) (value : Value Timestamp) :
    Except MatchError Timestamp :=
  match value.resolve bindings .date with
  | .ok (.date timestamp) => .ok timestamp
  | .ok bound => .error (.operandType test .date bound.type)
  | .error problem => .error problem

/-- Compare the date of birth with a moment, which is determined first. -/
def Subject.compareBirth (subject : Subject) (moment : Except MatchError Timestamp)
    (holds : Int → Int → Bool) (lookups : Lookups) : Outcome Bool :=
  match moment with
  | .error problem => (.error problem, lookups)
  | .ok moment =>
      match subject.lookupBirth lookups with
      | (.error problem, lookups) => (.error problem, lookups)
      | (.ok birth, lookups) => (.ok (holds birth.instant moment.instant), lookups)

def Test.run (subject : Subject) (bindings : Bindings) (value : Value Timestamp)
    (lookups : Lookups) : Test → Outcome Bool
  | .bornAfter =>
      subject.compareBirth (value.resolveDate bindings .bornAfter)
        (fun birth moment => moment < birth) lookups
  | .bornBefore =>
      subject.compareBirth (value.resolveDate bindings .bornBefore)
        (fun birth moment => birth < moment) lookups
  | .speciesIs =>
      match value.resolveInt32 bindings .speciesIs with
      | .error problem => (.error problem, lookups)
      | .ok wanted => (.ok (subject.species == wanted), lookups)

namespace Condition

mutual

def run (subject : Subject) (bindings : Bindings) :
    Condition Timestamp → Lookups → Outcome Bool
  | all children, lookups => runAll subject bindings children lookups
  | test kind value, lookups => kind.run subject bindings value lookups

/-- Run conditions until one does not hold. -/
def runAll (subject : Subject) (bindings : Bindings) :
    List (Condition Timestamp) → Lookups → Outcome Bool
  | [], lookups => (.ok true, lookups)
  | child :: siblings, lookups =>
      match run subject bindings child lookups with
      | (.ok true, lookups) => runAll subject bindings siblings lookups
      | (.ok false, lookups) => (.ok false, lookups)
      | (.error problem, lookups) => (.error problem, lookups)

end

end Condition

namespace Bindings

def checkParameter (bindings : Bindings) (parameter : Parameter) : Except MatchError Unit :=
  match bindings[parameter.name]? with
  | none => .error (.missingBinding parameter.name parameter.type)
  | some bound =>
      if bound.type = parameter.type then .ok ()
      else .error (.bindingType parameter.name parameter.type bound.type)

/-- Check the values of all parameters, up to the first that is wrong. -/
def check (bindings : Bindings) : List Parameter → Except MatchError Unit
  | [] => .ok ()
  | parameter :: later =>
      match bindings.checkParameter parameter with
      | .ok () => bindings.check later
      | .error problem => .error problem

end Bindings

namespace Program

/-- Whether the group has a subject as a member, and how the date of birth was looked up. -/
def examine (program : Program) (subject : Subject) (bindings : Bindings) : Outcome Bool :=
  match bindings.check program.parameters with
  | .error problem => (.error problem, .none)
  | .ok () => program.root.run subject bindings .none

def admits (program : Program) (subject : Subject) (bindings : Bindings) :
    Except MatchError Bool :=
  (program.examine subject bindings).1

end Program

end Cohort
