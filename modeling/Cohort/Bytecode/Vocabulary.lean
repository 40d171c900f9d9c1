import Cohort.Condition

/-!
The words of the bytecode format: the tags of conditions and values, and the fields that are
read and written.
-/

namespace Cohort

inductive ValueType where
  /-- A reference to a parameter, which has a type of its own. -/
  | reference
  | date
  | int32
deriving DecidableEq

namespace ValueType

def text : ValueType → String
  | reference => "ParamRef"
  | date => "Date"
  | int32 => "Int32"

def byte : ValueType → UInt8
  | reference => 0
  | date => 1
  | int32 => 2

def ofByte? (byte : UInt8) : Option ValueType :=
  match byte.toNat with
  | 0 => some reference
  | 1 => some date
  | 2 => some int32
  | _ => none

theorem ofByte?_byte (type : ValueType) : ofByte? type.byte = some type := by
  cases type <;> rfl

end ValueType

/-- The type of value that a test needs. -/
def Test.operand : Test → ValueType
  | .bornAfter => .date
  | .bornBefore => .date
  | .speciesIs => .int32

inductive Opcode where
  /-- Stands for no condition. -/
  | reserved
  | all
  | test (test : Test)
deriving DecidableEq

namespace Opcode

def text : Opcode → String
  | reserved => "NONCE"
  | all => "AND"
  | test .bornAfter => "BORN_AFTER"
  | test .bornBefore => "BORN_BEFORE"
  | test .speciesIs => "SPECIES_IS"

def byte : Opcode → UInt8
  | reserved => 0
  | all => 1
  | test .bornAfter => 2
  | test .bornBefore => 3
  | test .speciesIs => 4

def ofByte? (byte : UInt8) : Option Opcode :=
  match byte.toNat with
  | 0 => some reserved
  | 1 => some all
  | 2 => some (test .bornAfter)
  | 3 => some (test .bornBefore)
  | 4 => some (test .speciesIs)
  | _ => none

theorem ofByte?_byte (opcode : Opcode) : ofByte? opcode.byte = some opcode := by
  rcases opcode with _ | _ | _ | _ | _ <;> rfl

def isBlock (opcode : Opcode) : Bool :=
  opcode = all

/-- The type of value that follows an opcode, if one does. -/
def operand? : Opcode → Option ValueType
  | reserved | all => none
  | test kind => some kind.operand

end Opcode

def Condition.opcode {δ : Type} : Condition δ → Opcode
  | .all _ => .all
  | .test kind _ => .test kind

inductive Field where
  | version
  | length
  | scriptName
  | parameterCount
  | valueType
  | parameterName
  | opcode
  | childCount
  | parameterReference
  | dateLiteral
  | intLiteral
deriving DecidableEq

def Field.text : Field → String
  | version => "version"
  | length => "length"
  | scriptName => "script name"
  | parameterCount => "parameter count"
  | valueType => "value type"
  | parameterName => "parameter name"
  | opcode => "opcode"
  | childCount => "child count"
  | parameterReference => "parameter reference"
  | dateLiteral => "date literal"
  | intLiteral => "int literal"

def bytecodeVersion : UInt16 :=
  1

end Cohort
