import Std.Data.ExtTreeMap

/-!
Finite maps from names, in the order of the names.

Names are ordered character by character, which is also the order of their UTF-8 bytes.  Two maps
with the same entries are equal, however they were built.
-/

namespace Cohort

abbrev NameMap (β : Type) :=
  Std.ExtTreeMap String β compare

namespace NameMap

variable {β : Type}

/-- The map with the given entries; of several entries for one name the last counts. -/
def ofEntries (entries : List (String × β)) : NameMap β :=
  entries.foldl (fun map entry => map.insert entry.1 entry.2) ∅

end NameMap

end Cohort
