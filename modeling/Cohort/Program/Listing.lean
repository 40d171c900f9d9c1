import Cohort.Calendar.Rfc3339
import Cohort.Program.Basic

/-!
Programs as text, one part to a line.

A condition is indented by its level, and a block tells how many children follow it.
-/

namespace Cohort

def Value.listing : Value Timestamp → String
  | .reference name => ValueType.reference.text ++ " " ++ name
  | .date timestamp => ValueType.date.text ++ " " ++ timestamp.text
  | .species id => ValueType.int32.text ++ " " ++ toString id.toInt

def indent : (level : Nat) → String → String
  | 0, listing => listing
  | level + 1, listing => indent level (listing ++ "  ")

namespace Condition

mutual

def list (level : Nat) (listing : String) : Condition Timestamp → String
  | all children =>
      listBelow (level + 1)
        (indent level listing ++ Opcode.all.text ++ " " ++ toString children.length ++ "\n")
        children
  | test kind value =>
      indent level listing ++ (Opcode.test kind).text ++ " " ++ value.listing ++ "\n"

def listBelow (level : Nat) (listing : String) : List (Condition Timestamp) → String
  | [] => listing
  | child :: siblings => listBelow level (list level listing child) siblings

end

end Condition

def Parameter.listing (parameter : Parameter) : String :=
  "param " ++ parameter.type.text ++ " " ++ parameter.name ++ "\n"

/-- A program as text: version, name, parameters and condition. -/
def Program.listing (program : Program) : String :=
  let heading := "version " ++ toString program.version.toNat ++ "\nname " ++ program.name ++ "\n"
  program.root.list 0
    (program.parameters.foldl (fun lines parameter => lines ++ parameter.listing) heading)

end Cohort
