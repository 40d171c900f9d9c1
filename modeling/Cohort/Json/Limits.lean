import Cohort.Json.Reading
import Cohort.Json.Shape
import Cohort.Limits

/-!
Limits as JSON.

A description of limits leaves out what is to have its standard value.  It must not name anything
else, nor anything twice.
-/

namespace Cohort.Limits

def toJson (limits : Limits) : Json :=
  .object
    [("max_depth", .ofNat limits.maxDepth), ("max_version", .ofNat limits.maxVersion.toNat)]

def names : List String :=
  ["max_depth", "max_version"]

def override? (depth version : Option Json) : Option Limits := do
  let maxDepth ← match depth with
    | none => some standard.maxDepth
    | some value => value.natural? 18446744073709551616
  let maxVersion ← match version with
    | none => some standard.maxVersion
    | some value => (value.natural? 65536).map UInt16.ofNat
  return ⟨maxDepth, maxVersion⟩

/-- Whether the members of an object have different names, all of them names of limits. -/
def describesLimits : Json → Bool
  | .object members =>
      let given := members.map (·.1)
      given.all names.contains && given.eraseDups.length == given.length
  | _ => true

def ofJson? (value : Json) : Option Limits := do
  guard (describesLimits value)
  match ← value.fields? names with
  | [depth, version] => override? depth version
  | _ => none

def ofText (text : String) : Except LimitsError Limits :=
  match (Json.ofText? text).bind ofJson? with
  | none => .error .unreadable
  | some limits => do
      limits.check
      return limits

end Cohort.Limits
