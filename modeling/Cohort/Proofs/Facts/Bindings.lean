import Cohort.Bindings
import Cohort.Proofs.Json.Compact

/-!
# Bindings of the members of an object

Either all members of an object are bound, each to what its value gives, or none is and the first
unsuitable one is named.  The order in which the members are written makes no difference.
-/

namespace Cohort

/-!
## Values of members
-/

/-- Whether a JSON value gives a value for a parameter: a whole number of 32 bits, or a text that
stands for a moment. -/
inductive Json.Gives : Json → Bound → Prop where
  | number {value : Int} {bound : Int32} :
      -2147483648 ≤ value → value ≤ 2147483647 → bound.toInt = value →
      Gives (.number (.whole value)) (.int32 bound)
  | text {text : String} {timestamp : Timestamp} :
      Timestamp.ofText? text = some timestamp → Gives (.string text) (.date timestamp)

def Json.IsSuitable (value : Json) : Prop :=
  ∃ bound, value.Gives bound

theorem Bound.ofJson?_eq_some_iff {value : Json} {bound : Bound} :
    ofJson? value = some bound ↔ value.Gives bound := by
  constructor
  · intro given
    unfold ofJson? at given
    split at given
    next value =>
      obtain ⟨⟨low, high⟩, bound⟩ := Option.ite_none_right_eq_some.mp given
      obtain rfl := Option.some.inj bound
      exact .number low high (Int32.toInt_ofInt_of_le low (Int.lt_add_one_of_le high))
    next text =>
      obtain ⟨timestamp, read, rfl⟩ := Option.map_eq_some_iff.mp given
      exact .text read
    next => contradiction
  · rintro (⟨low, high, rfl⟩ | read)
    · rw [ofJson?, if_pos ⟨low, high⟩, Int32.ofInt_toInt]
    · rw [ofJson?, read]
      rfl

theorem Bound.ofJson?_eq_none_iff {value : Json} :
    ofJson? value = none ↔ ¬value.IsSuitable := by
  rw [Option.eq_none_iff_forall_ne_some]
  simp only [ne_eq, ofJson?_eq_some_iff, Json.IsSuitable, not_exists]

namespace Bindings

/-- What the suitable ones of some members give for their names. -/
def given (members : List (String × Json)) : List (String × Bound) :=
  members.filterMap fun member => (Bound.ofJson? member.2).map (member.1, ·)

theorem mem_given_iff {members : List (String × Json)} {name : String} {bound : Bound} :
    (name, bound) ∈ given members ↔ ∃ value, (name, value) ∈ members ∧ value.Gives bound := by
  simp [given, Bound.ofJson?_eq_some_iff]

theorem nodup_names_given {members : List (String × Json)}
    (distinct : (members.map Prod.fst).Nodup) : ((given members).map Prod.fst).Nodup := by
  have sublist : ((given members).map Prod.fst).Sublist (members.map Prod.fst) := by
    induction members with
    | nil => exact List.Sublist.refl _
    | cons member members inductionHypothesis =>
        have later := inductionHypothesis (List.nodup_cons.mp distinct).2
        cases suitable : Bound.ofJson? member.2 with
        | none => simpa [given, suitable] using later.cons member.1
        | some bound => simpa [given, suitable] using later.cons_cons member.1
  exact distinct.sublist sublist

/-- Members are all bound, one after the other, if all are suitable. -/
theorem bindMembers_eq_ok_iff {members : List (String × Json)} {bindings result : Bindings} :
    bindMembers members bindings = .ok result ↔
      (∀ member ∈ members, member.2.IsSuitable) ∧
        (given members).foldl (fun map entry => map.insert entry.1 entry.2) bindings = result := by
  induction members generalizing bindings with
  | nil => simp [bindMembers, given]
  | cons member members inductionHypothesis =>
      obtain ⟨name, value⟩ := member
      rw [bindMembers, List.forall_mem_cons]
      cases suitable : Bound.ofJson? value with
      | none =>
          have unsuitable := Bound.ofJson?_eq_none_iff.mp suitable
          simp [unsuitable]
      | some bound =>
          have isSuitable : value.IsSuitable := ⟨bound, Bound.ofJson?_eq_some_iff.mp suitable⟩
          simp [inductionHypothesis, isSuitable, given, suitable]

/-- Binding stops at the first unsuitable member. -/
theorem bindMembers_eq_error_iff {members : List (String × Json)} {bindings : Bindings}
    {error : BindingsError} :
    bindMembers members bindings = .error error ↔
      ∃ before name value after, members = before ++ (name, value) :: after ∧
        (∀ member ∈ before, member.2.IsSuitable) ∧ ¬value.IsSuitable ∧
        error = .unsuitable name value := by
  induction members generalizing bindings with
  | nil => simp [bindMembers]
  | cons member members inductionHypothesis =>
      obtain ⟨name, value⟩ := member
      rw [bindMembers]
      cases suitable : Bound.ofJson? value with
      | none =>
          have unsuitable := Bound.ofJson?_eq_none_iff.mp suitable
          constructor
          · intro stopped
            exact ⟨[], name, value, members, rfl, List.forall_mem_nil _, unsuitable,
              (Except.error.inj stopped).symm⟩
          · rintro ⟨before, other, otherValue, after, split, allSuitable, -, rfl⟩
            cases before with
            | nil =>
                obtain ⟨same, -⟩ := List.cons.inj split
                obtain ⟨rfl, rfl⟩ := Prod.mk.inj same
                rfl
            | cons first before =>
                obtain ⟨rfl, -⟩ := List.cons.inj split
                exact absurd (allSuitable _ List.mem_cons_self) unsuitable
      | some bound =>
          have isSuitable : value.IsSuitable := ⟨bound, Bound.ofJson?_eq_some_iff.mp suitable⟩
          refine inductionHypothesis.trans ⟨?_, ?_⟩
          · rintro ⟨before, other, otherValue, after, rfl, allSuitable, unsuitable, rfl⟩
            exact ⟨(name, value) :: before, other, otherValue, after, rfl,
              List.forall_mem_cons.mpr ⟨isSuitable, allSuitable⟩, unsuitable, rfl⟩
          · rintro ⟨before, other, otherValue, after, split, allSuitable, unsuitable, rfl⟩
            cases before with
            | nil =>
                obtain ⟨same, -⟩ := List.cons.inj split
                obtain ⟨rfl, rfl⟩ := Prod.mk.inj same
                contradiction
            | cons first before =>
                obtain ⟨rfl, rfl⟩ := List.cons.inj split
                exact ⟨before, other, otherValue, after, rfl,
                  (List.forall_mem_cons.mp allSuitable).2, unsuitable, rfl⟩

/-!
## Objects
-/

/-- Whether some pairs are those of the names and the values that the members of an object give,
each once and in any order. -/
structure ListsMembers (members : List (String × Json)) (pairs : List (String × Bound)) :
    Prop where
  distinctNames : (pairs.map Prod.fst).Nodup
  mem_iff : ∀ name bound, (name, bound) ∈ pairs ↔
    ∃ value, Json.memberOf? members name = some value ∧ value.Gives bound

/-- Whether a member is unsuitable, and no other unsuitable one has a name whose bytes come
before. -/
structure FirstUnsuitable (members : List (String × Json)) (name : String) (value : Json) :
    Prop where
  member : Json.memberOf? members name = some value
  unsuitable : ¬value.IsSuitable
  first : ∀ other otherValue, Json.memberOf? members other = some otherValue →
    ¬otherValue.IsSuitable → other ≠ name → Text.utf8 name < Text.utf8 other

/-- An object is bound if all its members are suitable, to just what these give. -/
theorem ofJson_object_eq_ok_iff {members : List (String × Json)} {bindings : Bindings} :
    ofJson (.object members) = .ok bindings ↔
      (∀ name value, Json.memberOf? members name = some value → value.IsSuitable) ∧
        ListsMembers members bindings.toList := by
  have distinct := nodup_names_given (NameMap.ofEntries members).nodup_names_toList
  rw [ofJson, bindMembers_eq_ok_iff]
  apply and_congr
  · simp only [Prod.forall, Json.mem_toList_members_iff]
  · refine (NameMap.ofEntries_eq_iff distinct).trans ⟨fun same => ?_, fun lists => ?_⟩
    · refine ⟨bindings.nodup_names_toList, fun name bound => ?_⟩
      rw [Std.ExtTreeMap.mem_toList_iff_getElem?_eq_some, ← same, mem_given_iff]
      simp only [Json.mem_toList_members_iff]
    · intro name bound
      rw [← Std.ExtTreeMap.mem_toList_iff_getElem?_eq_some, lists.mem_iff, mem_given_iff]
      simp only [Json.mem_toList_members_iff]

/-- Whichever way the members of an object are listed, the lists make the same map. -/
theorem ListsMembers.ofEntries_eq {members : List (String × Json)}
    {pairs : List (String × Bound)} {bindings : Bindings} (lists : ListsMembers members pairs)
    (listsBindings : ListsMembers members bindings.toList) :
    NameMap.ofEntries pairs = bindings := by
  apply (NameMap.ofEntries_eq_iff lists.distinctNames).mpr
  intro name bound
  rw [lists.mem_iff, ← listsBindings.mem_iff, Std.ExtTreeMap.mem_toList_iff_getElem?_eq_some]

theorem ListsMembers.reverse {members : List (String × Json)} {pairs : List (String × Bound)}
    (lists : ListsMembers members pairs) : ListsMembers members pairs.reverse where
  distinctNames := by
    rw [List.map_reverse, List.nodup_reverse]
    exact lists.distinctNames
  mem_iff name bound := by rw [List.mem_reverse, lists.mem_iff]

theorem ofJson_object_eq_error_iff {members : List (String × Json)} {error : BindingsError} :
    ofJson (.object members) = .error error ↔
      ∃ name value, FirstUnsuitable members name value ∧ error = .unsuitable name value := by
  rw [ofJson, bindMembers_eq_error_iff]
  have sorted := NameMap.pairwise_utf8_toList (NameMap.ofEntries members)
  constructor
  · rintro ⟨before, name, value, after, split, allSuitable, unsuitable, rfl⟩
    refine ⟨name, value, ⟨?_, unsuitable, ?_⟩, rfl⟩
    · rw [← Json.mem_toList_members_iff, split]
      simp
    · intro other otherValue member otherUnsuitable different
      rw [← Json.mem_toList_members_iff, split, List.mem_append, List.mem_cons] at member
      rw [split, List.pairwise_append, List.pairwise_cons] at sorted
      obtain inBefore | same | inAfter := member
      · exact absurd (allSuitable _ inBefore) otherUnsuitable
      · exact absurd (congrArg Prod.fst same) different
      · exact sorted.2.1.1 _ inAfter
  · rintro ⟨name, value, ⟨member, unsuitable, first⟩, rfl⟩
    obtain ⟨before, after, split⟩ := List.append_of_mem (Json.mem_toList_members_iff.mpr member)
    refine ⟨before, name, value, after, split, ?_, unsuitable, rfl⟩
    rintro ⟨other, otherValue⟩ inBefore
    by_contra otherUnsuitable
    rw [split, List.pairwise_append] at sorted
    have earlier := sorted.2.2 _ inBefore _ List.mem_cons_self
    have otherMember : Json.memberOf? members other = some otherValue := by
      rw [← Json.mem_toList_members_iff, split]
      exact List.mem_append_left _ inBefore
    have different : other ≠ name := by
      rintro rfl
      exact List.lt_irrefl _ earlier
    exact List.lt_asymm earlier (first other otherValue otherMember otherUnsuitable different)

theorem ofJson_object_perm {members others : List (String × Json)} (perm : members.Perm others)
    (distinct : (members.map Prod.fst).Nodup) :
    ofJson (.object members) = ofJson (.object others) := by
  have otherDistinct : (others.map Prod.fst).Nodup := (perm.map Prod.fst).nodup_iff.mp distinct
  have same : NameMap.ofEntries members = NameMap.ofEntries others := by
    apply (NameMap.ofEntries_eq_iff distinct).mpr
    intro name value
    rw [NameMap.getElem?_ofEntries_eq_some_iff otherDistinct, perm.mem_iff]
  rw [ofJson, ofJson, same]

theorem exists_ofJson_object_iff {members : List (String × Json)} :
    (∃ bindings, ofJson (.object members) = .ok bindings) ↔
      ∀ name value, Json.memberOf? members name = some value → value.IsSuitable := by
  constructor
  · rintro ⟨bindings, bound⟩
    exact (ofJson_object_eq_ok_iff.mp bound).1
  · intro allSuitable
    cases result : ofJson (.object members) with
    | ok bindings => exact ⟨bindings, rfl⟩
    | error error =>
        obtain ⟨name, value, first, -⟩ := ofJson_object_eq_error_iff.mp result
        exact absurd (allSuitable name value first.member) first.unsuitable

/-- There is an entry for every member, and no other. -/
theorem mem_iff_of_ofJson_object {members : List (String × Json)} {bindings : Bindings}
    (bound : ofJson (.object members) = .ok bindings) {name : String} :
    name ∈ bindings ↔ ∃ value, Json.memberOf? members name = some value := by
  obtain ⟨allSuitable, lists⟩ := ofJson_object_eq_ok_iff.mp bound
  have found : ∀ value, bindings[name]? = some value ↔
      ∃ member, Json.memberOf? members name = some member ∧ member.Gives value := by
    intro value
    rw [← Std.ExtTreeMap.mem_toList_iff_getElem?_eq_some, lists.mem_iff]
  rw [Std.ExtTreeMap.mem_iff_isSome_getElem?, Option.isSome_iff_exists]
  constructor
  · rintro ⟨value, entry⟩
    obtain ⟨member, present, -⟩ := (found value).mp entry
    exact ⟨member, present⟩
  · rintro ⟨member, present⟩
    obtain ⟨value, gives⟩ := allSuitable name member present
    exact ⟨value, (found value).mpr ⟨member, present, gives⟩⟩

/-- An object is bound as a whole or not at all: to the values of all its members, however these
are put together, or else the first unsuitable member is named and its value shown.  The order in
which the members are written makes no difference. -/
theorem ofJson_all_or_unsuitable :
    (∀ json, (∃ bindings, ofJson json = .ok bindings) ↔
      ∃ members, json = .object members ∧
        ∀ name value, Json.memberOf? members name = some value → value.IsSuitable) ∧
    (∀ members bindings, ofJson (.object members) = .ok bindings →
      ListsMembers members bindings.toList ∧
      (∀ name, name ∈ bindings ↔ ∃ value, Json.memberOf? members name = some value) ∧
      ∀ pairs, ListsMembers members pairs →
        NameMap.ofEntries pairs = bindings ∧
        pairs.foldr (fun pair built => built.insert pair.1 pair.2) ∅ = bindings) ∧
    (∀ members error, ofJson (.object members) = .error error ↔
      ∃ name value, FirstUnsuitable members name value ∧ error = .unsuitable name value ∧
        value.ShownAs value.compact.toList ∧
        error.message = "invalid bindings: '" ++ name ++
          "' is neither a 32-bit integer nor a date: " ++ value.compact) ∧
    ∀ members others, members.Perm others → (members.map Prod.fst).Nodup →
      ofJson (.object members) = ofJson (.object others) := by
  refine ⟨fun json => ⟨?_, ?_⟩, ?_, fun members error => ?_, ?_⟩
  · rintro ⟨bindings, bound⟩
    cases json with
    | object members => exact ⟨members, rfl, exists_ofJson_object_iff.mp ⟨bindings, bound⟩⟩
    | _ => contradiction
  · rintro ⟨members, rfl, allSuitable⟩
    exact exists_ofJson_object_iff.mpr allSuitable
  · intro members bindings bound
    have listsBindings := (ofJson_object_eq_ok_iff.mp bound).2
    refine ⟨listsBindings, fun name => mem_iff_of_ofJson_object bound, fun pairs lists => ?_⟩
    refine ⟨lists.ofEntries_eq listsBindings, ?_⟩
    rw [← lists.reverse.ofEntries_eq listsBindings, NameMap.ofEntries, List.foldl_reverse]
  · refine ofJson_object_eq_error_iff.trans ⟨?_, ?_⟩
    · rintro ⟨name, value, first, rfl⟩
      exact ⟨name, value, first, rfl, value.shownAs_compact, rfl⟩
    · rintro ⟨name, value, first, named, -⟩
      exact ⟨name, value, first, named⟩
  · exact fun members others perm distinct => ofJson_object_perm perm distinct

/-- Members that are all suitable, and two unsuitable ones of which the bytes of the later name
come first. -/
theorem ofJson_all_or_unsuitable_samples :
    (∃ bindings, ofJson (.object [("n", .ofInt (-3)), ("at", .string "2020-06-01")]) =
      .ok bindings ∧ "n" ∈ bindings ∧
      ofJson (.object [("at", .string "2020-06-01"), ("n", .ofInt (-3))]) = .ok bindings) ∧
    ofJson (.object [("\u00e9", .bool true), ("n", .ofInt 0), ("z", .ofInt 2147483648)]) =
      .error (.unsuitable "z" (.ofInt 2147483648)) := by
  obtain ⟨ok, entries, error, order⟩ := ofJson_all_or_unsuitable
  constructor
  · have allSuitable : ∀ name value, Json.memberOf?
        [("n", .ofInt (-3)), ("at", .string "2020-06-01")] name = some value →
        value.IsSuitable := by
      intro name value member
      have membership := Json.mem_of_memberOf?_eq_some member
      simp only [List.mem_cons, Prod.mk.injEq, List.not_mem_nil, or_false] at membership
      obtain ⟨-, rfl⟩ | ⟨-, rfl⟩ := membership
      · exact ⟨_, .number (by decide) (by decide) (Int32.toInt_ofInt_of_le (by decide) (by decide))⟩
      · have read : (Timestamp.ofText? "2020-06-01").isSome = true := by decide +kernel
        obtain ⟨timestamp, found⟩ := Option.isSome_iff_exists.mp read
        exact ⟨_, .text found⟩
    obtain ⟨bindings, bound⟩ := (ok _).mpr ⟨_, rfl, allSuitable⟩
    refine ⟨bindings, bound, ?_, ?_⟩
    · exact ((entries _ _ bound).2.1 "n").mpr ⟨_, rfl⟩
    · exact (order _ _ (.swap _ _ []) (by decide)).trans bound
  · refine (error _ _).mpr ⟨"z", _, ⟨rfl, ?_, ?_⟩, rfl, Json.shownAs_compact _, rfl⟩
    · exact Bound.ofJson?_eq_none_iff.mp rfl
    · intro other value member unsuitable different
      have membership := Json.mem_of_memberOf?_eq_some member
      simp only [List.mem_cons, Prod.mk.injEq, List.not_mem_nil, or_false] at membership
      obtain ⟨rfl, rfl⟩ | ⟨rfl, rfl⟩ | ⟨rfl, rfl⟩ := membership
      · decide +kernel
      · exact absurd ⟨_, Bound.ofJson?_eq_some_iff.mp rfl⟩ unsuitable
      · contradiction

end Bindings

end Cohort
