import Cohort.Bytecode.BigEndian
import Cohort.Limits
import Cohort.Program.Basic

/-!
Loading programs from bytecode.

Loading checks everything that running a program relies on: every reference names a declared
parameter, every value has the type that its test needs, and the nesting stays within a limit.
The first fault met is reported, where it concerns bytes together with their offset in the image.
-/

namespace Cohort

inductive LoadError where
  | unsupportedVersion (found supported : UInt16)
  | truncated (offset : Nat) (field : Field)
  | lengthMismatch (declared actual : Nat)
  | trailingBytes (count : Nat)
  | unknownOpcode (byte : UInt8) (offset : Nat)
  | unknownValueType (byte : UInt8) (offset : Nat)
  | rootNotBlock (opcode : Opcode)
  | typeMismatch (opcode : Opcode) (expected actual : ValueType)
  | unknownParameter (opcode : Opcode) (name : String)
  | duplicateParameter (name : String)
  | invalidParameterType (name : String) (type : ValueType)
  | invalidText (offset : Nat)
  | dateOutOfRange (ticks : Nat)
  | nestingTooDeep (limit : Nat)
deriving DecidableEq

def LoadError.message : LoadError → String
  | unsupportedVersion found supported =>
      "bytecode version " ++ toString found.toNat ++ " is newer than the supported version "
        ++ toString supported.toNat
  | truncated offset field =>
      "bytecode truncated at offset " ++ toString offset ++ " while reading " ++ field.text
  | lengthMismatch declared actual =>
      "length field declares " ++ toString declared ++ " bytes but " ++ toString actual ++ " follow"
  | trailingBytes count => toString count ++ " unread bytes after the main action"
  | unknownOpcode byte offset =>
      "unknown opcode " ++ toString byte.toNat ++ " at offset " ++ toString offset
  | unknownValueType byte offset =>
      "unknown value type " ++ toString byte.toNat ++ " at offset " ++ toString offset
  | rootNotBlock opcode => "the main action must be a block action, found " ++ opcode.text
  | typeMismatch opcode expected actual =>
      opcode.text ++ " expects a " ++ expected.text ++ " value, found " ++ actual.text
  | unknownParameter opcode name =>
      opcode.text ++ " references undeclared parameter '" ++ name ++ "'"
  | duplicateParameter name => "parameter '" ++ name ++ "' is declared more than once"
  | invalidParameterType name type =>
      "parameter '" ++ name ++ "' cannot be declared with type " ++ type.text
  | invalidText offset => "string at offset " ++ toString offset ++ " is not ASCII"
  | dateOutOfRange ticks =>
      "tick count " ++ toString ticks ++ " is outside the supported date range"
  | nestingTooDeep limit => "actions are nested deeper than " ++ toString limit ++ " levels"

/-- What is left of an image, and how much has been read. -/
structure Cursor where
  rest : List UInt8
  offset : Nat

abbrev Reader (α : Type) :=
  StateT Cursor (Except LoadError) α

namespace Reader

def offset : Reader Nat :=
  return (← get).offset

/-- Read some bytes.  If too few are left, none is read and the field is reported. -/
def bytes (field : Field) (count : Nat) : Reader (List UInt8) := fun cursor =>
  let bytes := cursor.rest.take count
  if bytes.length = count then
    .ok (bytes, ⟨cursor.rest.drop count, cursor.offset + count⟩)
  else
    .error (.truncated cursor.offset field)

def number (field : Field) (width : Nat) : Reader Nat :=
  return ofBigEndian (← bytes field width)

def byte (field : Field) : Reader UInt8 :=
  return UInt8.ofNat (← number field 1)

def valueType : Reader ValueType := do
  let start ← offset
  let tag ← byte .valueType
  match ValueType.ofByte? tag with
  | some type => return type
  | none => throw (.unknownValueType tag start)

def text (field : Field) : Reader String := do
  let length ← number field 2
  let start ← offset
  let characters ← bytes field length
  if characters.all (· < 128) then
    return String.ofList (characters.map fun character => Char.ofNat character.toNat)
  else
    throw (.invalidText start)

/-- Read something a number of times, after the results so far, newest first. -/
def times {α : Type} (read : Reader α) : (count : Nat) → (results : List α) → Reader (List α)
  | 0, results => fun cursor => .ok (results.reverse, cursor)
  | count + 1, results => fun cursor =>
      match read cursor with
      | .error problem => .error problem
      | .ok (result, cursor) => times read count (result :: results) cursor

def parameter (declared : List Parameter) : Reader Parameter := do
  let type ← valueType
  let name ← text .parameterName
  if type = .reference then
    throw (.invalidParameterType name type)
  if declared.any (·.name == name) then
    throw (.duplicateParameter name)
  return ⟨name, type⟩

def parameters : (count : Nat) → (declared : List Parameter) → Reader (List Parameter)
  | 0, declared => fun cursor => .ok (declared.reverse, cursor)
  | count + 1, declared => fun cursor =>
      match parameter declared cursor with
      | .error problem => .error problem
      | .ok (next, cursor) => parameters count (next :: declared) cursor

/-- Read the value of a test.  It must have the type that the test needs, or refer to a
parameter of that type. -/
def value (declared : List Parameter) (test : Test) : Reader (Value Timestamp) := do
  let type ← valueType
  match type with
  | .reference =>
      let name ← text .parameterReference
      match declared.find? (·.name == name) with
      | none => throw (.unknownParameter (.test test) name)
      | some parameter =>
          if parameter.type = test.operand then
            return .reference name
          else
            throw (.typeMismatch (.test test) test.operand parameter.type)
  | .date =>
      if test.operand = .date then
        let ticks ← number .dateLiteral 8
        match Timestamp.ofTicks? ticks with
        | some timestamp => return .date timestamp
        | none => throw (.dateOutOfRange ticks)
      else
        throw (.typeMismatch (.test test) test.operand .date)
  | .int32 =>
      if test.operand = .int32 then
        return .species (UInt32.ofNat (← number .intLiteral 4)).toInt32
      else
        throw (.typeMismatch (.test test) test.operand .int32)

/-- Read a condition.  `levels` counts the levels that the limit still allows. -/
def condition (declared : List Parameter) (limit : Nat) :
    (levels : Nat) → Reader (Condition Timestamp)
  | 0 => throw (.nestingTooDeep limit)
  | levels + 1 => do
      let start ← offset
      let tag ← byte .opcode
      match Opcode.ofByte? tag with
      | some .all => do
          let count ← number .childCount 2
          return .all (← times (condition declared limit levels) count [])
      | some (.test test) => return .test test (← value declared test)
      | some .reserved | none => throw (.unknownOpcode tag start)

def program (limits : Limits) : Reader Program := do
  let version := UInt16.ofNat (← number .version 2)
  if limits.supportedVersion < version then
    throw (.unsupportedVersion version limits.supportedVersion)
  let declared ← number .length 4
  let actual := (← get).rest.length
  if declared ≠ actual then
    throw (.lengthMismatch declared actual)
  let name ← text .scriptName
  let count ← number .parameterCount 2
  let parameters ← parameters count []
  let root ← condition parameters limits.maxDepth limits.maxDepth
  if !root.isBlock then
    throw (.rootNotBlock root.opcode)
  let unread := (← get).rest.length
  if 0 < unread then
    throw (.trailingBytes unread)
  return ⟨version, name, parameters, root⟩

end Reader

def Program.load (limits : Limits) (image : List UInt8) : Except LoadError Program :=
  (Reader.program limits).run' ⟨image, 0⟩

end Cohort
