import Cohort.Json.Basic

/-!
The shapes that JSON values are expected to have.

Records may be written as objects or as arrays of their fields in order.  A choice is an object
with one member, named for the alternative that was taken.
-/

namespace Cohort.Json

def whole? (low high : Int) : Json → Option Int
  | number (.whole value) => if low ≤ value ∧ value ≤ high then some value else none
  | _ => none

def natural? (bound : Nat) (value : Json) : Option Nat :=
  (value.whole? 0 (bound - 1)).map Int.toNat

def text? : Json → Option String
  | string value => some value
  | _ => none

def items? : Json → Option (List Json)
  | array items => some items
  | _ => none

def itemsWith? {α : Type} (read : Json → Option α) (value : Json) : Option (List α) := do
  (← value.items?).mapM read

/-- The value of a member; where an object names it twice the last one counts. -/
def memberOf? (members : List (String × Json)) (name : String) : Option Json :=
  (members.reverse.find? (·.1 == name)).map (·.2)

def member? (name : String) : Json → Option Json
  | object members => memberOf? members name
  | _ => none

/-- Pair names with the items of an array in order; an item without a name is a fault. -/
def alignFields? : (names : List String) → List Json → Option (List (Option Json))
  | names, [] => some (names.map fun _ => none)
  | [], _ :: _ => none
  | _ :: names, item :: items => (alignFields? names items).map (some item :: ·)

/-- The fields of a record, each where it is present.  Members with other names are ignored. -/
def fields? (names : List String) : Json → Option (List (Option Json))
  | object members => some (names.map (memberOf? members))
  | array items => alignFields? names items
  | _ => none

def entriesWith? {α : Type} (read : Json → Option α) : Json → Option (NameMap α)
  | object members => do
      let entries ← members.mapM fun (name, value) => do return (name, ← read value)
      return NameMap.ofEntries entries
  | _ => none

end Cohort.Json
