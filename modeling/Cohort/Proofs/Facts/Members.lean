import Cohort.Json.Shape
import Cohort.Proofs.Text.Utf8Order
import Mathlib.Data.List.Induction
import Mathlib.Data.List.Nodup

/-!
# Members of objects

The entries of a map that is made of a list are those that come last in the list for their names.
So the map of the members of an object holds the values that count.
-/

namespace Cohort

namespace NameMap

variable {β : Type}

theorem getElem?_ofEntries (entries : List (String × β)) (name : String) :
    (ofEntries entries)[name]? = (entries.reverse.find? (·.1 == name)).map (·.2) := by
  induction entries using List.reverseRecOn with
  | nil => rfl
  | append_singleton before entry inductionHypothesis =>
      have inserted : ofEntries (before ++ [entry]) =
          (ofEntries before).insert entry.1 entry.2 := by
        simp [ofEntries]
      rw [inserted, Std.ExtTreeMap.getElem?_insert, List.reverse_append, List.reverse_singleton,
        List.singleton_append, List.find?_cons, inductionHypothesis]
      cases same : entry.1 == name with
      | true => simp [eq_of_beq same]
      | false => simp [ne_of_beq_false same]

theorem mem_of_getElem?_ofEntries {entries : List (String × β)} {name : String} {value : β}
    (found : (ofEntries entries)[name]? = some value) : (name, value) ∈ entries := by
  rw [getElem?_ofEntries, Option.map_eq_some_iff] at found
  obtain ⟨⟨other, _⟩, last, rfl⟩ := found
  obtain rfl : other = name := by simpa using List.find?_some last
  exact List.mem_reverse.mp (List.mem_of_find?_eq_some last)

/-- Of entries with distinct names each is in the map that is made of them. -/
theorem getElem?_ofEntries_eq_some_iff {entries : List (String × β)}
    (distinct : (entries.map Prod.fst).Nodup) {name : String} {value : β} :
    (ofEntries entries)[name]? = some value ↔ (name, value) ∈ entries := by
  refine ⟨mem_of_getElem?_ofEntries, fun membership => ?_⟩
  rw [getElem?_ofEntries, Option.map_eq_some_iff]
  cases found : entries.reverse.find? (·.1 == name) with
  | none =>
      have missing := List.find?_eq_none.mp found _ (List.mem_reverse.mpr membership)
      simp at missing
  | some entry =>
      have inEntries := List.mem_reverse.mp (List.mem_of_find?_eq_some found)
      have sameName : entry.1 = name := by simpa using List.find?_some found
      obtain rfl := List.inj_on_of_nodup_map distinct inEntries membership sameName
      exact ⟨_, rfl, rfl⟩

/-- Entries with distinct names make a map if they are its entries, in any order. -/
theorem ofEntries_eq_iff {entries : List (String × β)} {map : NameMap β}
    (distinct : (entries.map Prod.fst).Nodup) :
    ofEntries entries = map ↔
      ∀ name value, (name, value) ∈ entries ↔ map[name]? = some value := by
  constructor
  · rintro rfl name value
    exact (getElem?_ofEntries_eq_some_iff distinct).symm
  · intro same
    apply Std.ExtTreeMap.ext_getElem?
    intro name
    apply Option.ext
    intro value
    rw [getElem?_ofEntries_eq_some_iff distinct, same]

/-- Entries whose values are changed make the map whose values are changed. -/
theorem ofEntries_map {γ : Type} (entries : List (String × β)) (change : β → γ) :
    ofEntries (entries.map fun entry => (entry.1, change entry.2)) =
      (ofEntries entries).map fun _ => change := by
  apply Std.ExtTreeMap.ext_getElem?
  intro name
  rw [Std.ExtTreeMap.getElem?_map, getElem?_ofEntries, getElem?_ofEntries, ← List.map_reverse,
    List.find?_map, Option.map_map, Option.map_map]
  rfl

theorem nodup_names_toList (map : NameMap β) : (map.toList.map Prod.fst).Nodup := by
  rw [Std.ExtTreeMap.map_fst_toList_eq_keys]
  exact Std.ExtTreeMap.nodup_keys

theorem pairwise_utf8_toList (map : NameMap β) :
    map.toList.Pairwise fun first second => Text.utf8 first.1 < Text.utf8 second.1 :=
  Std.ExtTreeMap.ordered_keys_toList.imp Text.compare_eq_lt_iff.mp

end NameMap

namespace Json

theorem mem_toList_members_iff {members : List (String × Json)} {name : String} {value : Json} :
    (name, value) ∈ (NameMap.ofEntries members).toList ↔
      Json.memberOf? members name = some value := by
  rw [Std.ExtTreeMap.mem_toList_iff_getElem?_eq_some, NameMap.getElem?_ofEntries]
  rfl

theorem mem_of_memberOf?_eq_some {members : List (String × Json)} {name : String} {value : Json}
    (member : memberOf? members name = some value) : (name, value) ∈ members :=
  NameMap.mem_of_getElem?_ofEntries ((NameMap.getElem?_ofEntries _ name).trans member)

end Json

end Cohort
