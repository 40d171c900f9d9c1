import Cohort.Bytecode.Vocabulary

/-!
The limits within which programs are loaded.
-/

namespace Cohort

/-- What a loader accepts. -/
structure Limits where
  /-- The deepest level of nesting, the whole condition being at level 1. -/
  maxDepth : Nat
  /-- The newest version of the bytecode format; never beyond the one that is known. -/
  maxVersion : UInt16
deriving DecidableEq

inductive LimitsError where
  /-- The text does not describe limits. -/
  | unreadable
  | noDepth
  | versionOutOfRange (found : UInt16)
deriving DecidableEq

def LimitsError.message : LimitsError → String
  | unreadable => "invalid evaluator config: not a description of limits"
  | noDepth => "invalid evaluator config: max_depth must be at least 1"
  | versionOutOfRange found =>
      "invalid evaluator config: max_version must be between 1 and "
        ++ toString bytecodeVersion.toNat ++ ", got " ++ toString found.toNat

namespace Limits

def standard : Limits :=
  ⟨64, bytecodeVersion⟩

/-- Check that some program can meet the limits, and that they ask for no unknown version. -/
def check (limits : Limits) : Except LimitsError Unit :=
  if limits.maxDepth = 0 then
    .error .noDepth
  else if limits.maxVersion = 0 ∨ bytecodeVersion < limits.maxVersion then
    .error (.versionOutOfRange limits.maxVersion)
  else
    .ok ()

def supportedVersion (limits : Limits) : UInt16 :=
  min limits.maxVersion bytecodeVersion

end Limits

end Cohort
