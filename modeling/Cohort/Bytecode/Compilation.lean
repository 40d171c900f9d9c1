import Cohort.Bytecode.BigEndian
import Cohort.Bytecode.Vocabulary
import Cohort.Calendar.Timestamp
import Cohort.Script.Basic

/-!
Writing a script as bytecode.

An image begins with the version and the length of what follows.  Then come the name, the
parameters and the condition, every part of it behind its opcode.  A text is preceded by its
length.
-/

namespace Cohort

inductive CompileError where
  | textTooLong (field : Field) (length : Nat)
  | nonAscii (text : String)
  | tooManyParameters (count : Nat)
  | tooManyChildren (count : Nat)
  | bodyTooLong (length : Nat)
  | dateOutOfRange (date : Date)
deriving DecidableEq

def CompileError.message : CompileError → String
  | textTooLong field length =>
      field.text ++ " is " ++ toString length ++ " bytes long, the limit is 65535"
  | nonAscii text => "'" ++ text ++ "' contains non-ASCII characters"
  | tooManyParameters count => toString count ++ " parameters declared, the limit is 65535"
  | tooManyChildren count => "AND block has " ++ toString count ++ " children, the limit is 65535"
  | bodyTooLong length =>
      "compiled body is " ++ toString length ++ " bytes long, the limit is 4294967295"
  | dateOutOfRange date => "date " ++ date.text ++ " cannot be encoded as ticks"

/-- The type that a kind of parameter has in bytecode: a species is a plain number. -/
def ParameterKind.valueType : ParameterKind → ValueType
  | .species => .int32

abbrev Output :=
  Array UInt8

def isAscii (character : Char) : Bool :=
  character.toNat < 128

def asciiBytes (text : String) : List UInt8 :=
  text.toList.map fun character => UInt8.ofNat character.toNat

namespace Output

def byte (output : Output) (byte : UInt8) : Output :=
  output.push byte

def bytes (output : Output) (bytes : List UInt8) : Output :=
  output.appendList bytes

def number (output : Output) (width number : Nat) : Output :=
  output.bytes (bigEndian width number)

def count (output : Output) (count : Nat) (tooMany : CompileError) : Except CompileError Output :=
  if count ≤ 65535 then .ok (output.number 2 count) else .error tooMany

/-- Write a text behind its length. -/
def text (output : Output) (field : Field) (text : String) : Except CompileError Output :=
  if text.toList.all isAscii then do
    let length := text.toList.length
    let output ← output.count length (.textTooLong field length)
    return output.bytes (asciiBytes text)
  else
    .error (.nonAscii text)

def value (output : Output) : Value Date → Except CompileError Output
  | .reference name => (output.byte ValueType.reference.byte).text .parameterReference name
  | .date date =>
      match date.ticks? with
      | some ticks => .ok ((output.byte ValueType.date.byte).number 8 ticks)
      | none => .error (.dateOutOfRange date)
  | .species id => .ok ((output.byte ValueType.int32.byte).number 4 id.toUInt32.toNat)

mutual

def condition (output : Output) : Condition Date → Except CompileError Output
  | .all children => do
      let length := children.length
      let output ← (output.byte Opcode.all.byte).count length (.tooManyChildren length)
      output.conditions children
  | .test test value => (output.byte (Opcode.test test).byte).value value

def conditions (output : Output) : List (Condition Date) → Except CompileError Output
  | [] => .ok output
  | child :: siblings =>
      match output.condition child with
      | .error problem => .error problem
      | .ok output => output.conditions siblings

end

def declarations (output : Output) : List Declaration → Except CompileError Output
  | [] => .ok output
  | declaration :: later =>
      match (output.byte declaration.kind.valueType.byte).text .parameterName declaration.name with
      | .error problem => .error problem
      | .ok output => output.declarations later

end Output

def Script.body (script : Script) : Except CompileError Output := do
  let output ← Output.text #[] .scriptName script.name
  let count := script.parameters.length
  let output ← output.count count (.tooManyParameters count)
  let output ← output.declarations script.parameters
  output.condition script.root

/-- The image of a script. -/
def Script.compile (script : Script) : Except CompileError (List UInt8) := do
  let body ← script.body
  if body.size ≤ 4294967295 then
    return bigEndian 2 bytecodeVersion.toNat ++ bigEndian 4 body.size ++ body.toList
  else
    .error (.bodyTooLong body.size)

end Cohort
