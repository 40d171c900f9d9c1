import Cohort.Condition
import Mathlib.Data.List.Basic

/-!
# The shape of conditions

Induction over nested blocks, and what depth, tests and child counts of a block say of its
children.  Replacing the dates of a condition keeps its depth and its tests in their places.
-/

namespace Cohort.Condition

variable {δ ε : Type}

/-- What holds of every test, and of a block whenever it holds of its children, holds of every
condition. -/
@[elab_as_elim]
theorem induction {motive : Condition δ → Prop}
    (all : ∀ children, (∀ child ∈ children, motive child) → motive (.all children))
    (test : ∀ kind value, motive (.test kind value)) (condition : Condition δ) :
    motive condition :=
  match condition with
  | .all children => all children fun child _ => induction all test child
  | .test kind value => test kind value

/-- What is collected child by child is collected from all children. -/
theorem eq_flatMap_of_cons {α β : Type} {parts : α → List β} {below : List α → List β}
    (nil : below [] = [])
    (cons : ∀ child siblings, below (child :: siblings) = parts child ++ below siblings)
    (children : List α) : below children = children.flatMap parts := by
  induction children with
  | nil => exact nil
  | cons child siblings inductionHypothesis =>
      rw [cons, inductionHypothesis, List.flatMap_cons]

theorem depthBelow_le_iff {children : List (Condition δ)} {bound : Nat} :
    depthBelow children ≤ bound ↔ ∀ child ∈ children, child.depth ≤ bound := by
  induction children with
  | nil => simp [depthBelow]
  | cons child siblings inductionHypothesis =>
      simp only [depthBelow, Nat.max_le, List.forall_mem_cons, inductionHypothesis]

theorem depth_pos (condition : Condition δ) : 0 < condition.depth := by
  cases condition with
  | all children => exact Nat.succ_pos _
  | test kind value => exact Nat.one_pos

theorem depth_all_le_succ_iff {children : List (Condition δ)} {bound : Nat} :
    (all children).depth ≤ bound + 1 ↔ ∀ child ∈ children, child.depth ≤ bound := by
  rw [depth, Nat.add_le_add_iff_right, depthBelow_le_iff]

@[simp]
theorem tests_test (kind : Test) (value : Value δ) : (test kind value).tests = [(kind, value)] :=
  rfl

theorem testsBelow_eq_flatMap (children : List (Condition δ)) :
    testsBelow children = children.flatMap tests :=
  eq_flatMap_of_cons rfl (fun _ _ => rfl) children

@[simp]
theorem tests_all (children : List (Condition δ)) :
    (all children).tests = children.flatMap tests :=
  testsBelow_eq_flatMap children

theorem forall_mem_tests_all_iff {children : List (Condition δ)}
    {property : Test × Value δ → Prop} :
    (∀ leaf ∈ (all children).tests, property leaf) ↔
      ∀ child ∈ children, ∀ leaf ∈ child.tests, property leaf := by
  simp only [tests_all, List.mem_flatMap]
  constructor
  · intro holds child membership leaf inChild
    exact holds leaf ⟨child, membership, inChild⟩
  · rintro holds leaf ⟨child, membership, inChild⟩
    exact holds child membership leaf inChild

mutual

/-- The numbers of children of the blocks in a condition, outer blocks first. -/
def childCounts : Condition δ → List Nat
  | all children => children.length :: childCountsBelow children
  | test _ _ => []

def childCountsBelow : List (Condition δ) → List Nat
  | [] => []
  | child :: siblings => child.childCounts ++ childCountsBelow siblings

end

theorem childCountsBelow_eq_flatMap (children : List (Condition δ)) :
    childCountsBelow children = children.flatMap childCounts :=
  eq_flatMap_of_cons rfl (fun _ _ => rfl) children

@[simp]
theorem childCounts_test (kind : Test) (value : Value δ) : (test kind value).childCounts = [] :=
  rfl

@[simp]
theorem childCounts_all (children : List (Condition δ)) :
    (all children).childCounts = children.length :: children.flatMap childCounts := by
  rw [childCounts, childCountsBelow_eq_flatMap]

theorem forall_mem_childCounts_all_iff {children : List (Condition δ)} {property : Nat → Prop} :
    (∀ count ∈ (all children).childCounts, property count) ↔
      property children.length ∧
        ∀ child ∈ children, ∀ count ∈ child.childCounts, property count := by
  simp only [childCounts_all, List.forall_mem_cons, List.mem_flatMap]
  apply and_congr_right
  intro _
  constructor
  · intro holds child membership count inChild
    exact holds count ⟨child, membership, inChild⟩
  · rintro holds count ⟨child, membership, inChild⟩
    exact holds child membership count inChild

end Cohort.Condition

namespace Cohort

variable {δ ε : Type}

def Value.map (replace : δ → ε) : Value δ → Value ε
  | .reference name => .reference name
  | .date day => .date (replace day)
  | .species id => .species id

theorem Value.traverse_map {replace : δ → ε} {restore : ε → Option δ}
    (restored : ∀ day, restore (replace day) = some day) (value : Value δ) :
    (value.map replace).traverse restore = some value := by
  cases value with
  | reference name => rfl
  | date day => simp [Value.map, Value.traverse, restored]
  | species id => rfl

theorem Value.map_of_traverse {replace : δ → ε} {restore : ε → Option δ} {value : Value ε}
    {restored : Value δ}
    (undone : ∀ day original, value = .date day → restore day = some original →
      replace original = day)
    (found : value.traverse restore = some restored) : restored.map replace = value := by
  cases value with
  | reference name =>
      cases found
      rfl
  | date day =>
      obtain ⟨original, restoredDay, rfl⟩ := Option.map_eq_some_iff.mp found
      rw [Value.map, undone day original rfl restoredDay]
  | species id =>
      cases found
      rfl

end Cohort

namespace Cohort.Condition

variable {δ ε : Type}

mutual

def map (replace : δ → ε) : Condition δ → Condition ε
  | all children => all (mapBelow replace children)
  | test kind value => test kind (value.map replace)

def mapBelow (replace : δ → ε) : List (Condition δ) → List (Condition ε)
  | [] => []
  | child :: siblings => map replace child :: mapBelow replace siblings

end

@[simp]
theorem map_test (replace : δ → ε) (kind : Test) (value : Value δ) :
    (test kind value).map replace = test kind (value.map replace) :=
  rfl

theorem mapBelow_eq_map (replace : δ → ε) (children : List (Condition δ)) :
    mapBelow replace children = children.map (map replace) := by
  induction children with
  | nil => rfl
  | cons child siblings inductionHypothesis =>
      rw [mapBelow, inductionHypothesis, List.map_cons]

@[simp]
theorem map_all (replace : δ → ε) (children : List (Condition δ)) :
    (all children).map replace = all (children.map (map replace)) := by
  rw [map, mapBelow_eq_map]

@[simp]
theorem isBlock_map (replace : δ → ε) (condition : Condition δ) :
    (condition.map replace).isBlock = condition.isBlock := by
  cases condition <;> rfl

theorem depth_map_le_iff (replace : δ → ε) (condition : Condition δ) (bound : Nat) :
    (condition.map replace).depth ≤ bound ↔ condition.depth ≤ bound := by
  induction condition using induction generalizing bound with
  | test kind value => rfl
  | all children inductionHypothesis =>
      cases bound with
      | zero =>
          have below := depth_pos (all children)
          have mapped := depth_pos ((all children).map replace)
          omega
      | succ bound =>
          rw [map_all, depth_all_le_succ_iff, depth_all_le_succ_iff, List.forall_mem_map]
          constructor
          · intro fits child membership
            exact (inductionHypothesis child membership bound).mp (fits child membership)
          · intro fits child membership
            exact (inductionHypothesis child membership bound).mpr (fits child membership)

@[simp]
theorem depth_map (replace : δ → ε) (condition : Condition δ) :
    (condition.map replace).depth = condition.depth := by
  apply Nat.le_antisymm
  · exact (depth_map_le_iff replace condition _).mpr (Nat.le_refl _)
  · exact (depth_map_le_iff replace condition _).mp (Nat.le_refl _)

@[simp]
theorem tests_map (replace : δ → ε) (condition : Condition δ) :
    (condition.map replace).tests =
      condition.tests.map fun leaf => (leaf.1, leaf.2.map replace) := by
  induction condition using induction with
  | test kind value => rfl
  | all children inductionHypothesis =>
      rw [map_all, tests_all, tests_all, List.flatMap_map, List.map_flatMap]
      exact List.flatMap_congr inductionHypothesis

@[simp]
theorem childCounts_map (replace : δ → ε) (condition : Condition δ) :
    (condition.map replace).childCounts = condition.childCounts := by
  induction condition using induction with
  | test kind value => rfl
  | all children inductionHypothesis =>
      rw [map_all, childCounts_all, childCounts_all, List.length_map, List.flatMap_map]
      exact congrArg (children.length :: ·) (List.flatMap_congr inductionHypothesis)

/-- What is done to every item succeeds exactly where it does for each. -/
theorem isSome_mapM_iff {α β : Type} {replace : α → Option β} {items : List α} :
    (items.mapM replace).isSome ↔ ∀ item ∈ items, (replace item).isSome := by
  induction items with
  | nil => simp
  | cons item items inductionHypothesis =>
      rw [List.mapM_cons, List.forall_mem_cons, ← inductionHypothesis]
      cases replace item with
      | none => simp
      | some replaced => cases items.mapM replace <;> simp

theorem mapM_congr {α β : Type} {first second : α → Option β} {items : List α}
    (same : ∀ item ∈ items, first item = second item) : items.mapM first = items.mapM second := by
  induction items with
  | nil => rfl
  | cons item items inductionHypothesis =>
      rw [List.forall_mem_cons] at same
      rw [List.mapM_cons, List.mapM_cons, same.1, inductionHypothesis same.2]

theorem mapM_map_of_restored {α β : Type} {replace : α → β} {restore : β → Option α}
    {items : List α} (restored : ∀ item ∈ items, restore (replace item) = some item) :
    (items.map replace).mapM restore = some items := by
  induction items with
  | nil => rfl
  | cons item items inductionHypothesis =>
      rw [List.forall_mem_cons] at restored
      rw [List.map_cons, List.mapM_cons, restored.1, inductionHypothesis restored.2]
      rfl

theorem map_of_mapM {α β : Type} {replace : α → β} {restore : β → Option α} {items : List β}
    {restored : List α}
    (undone : ∀ item ∈ items, ∀ original, restore item = some original → replace original = item)
    (found : items.mapM restore = some restored) : restored.map replace = items := by
  induction items generalizing restored with
  | nil =>
      cases found
      rfl
  | cons item items inductionHypothesis =>
      rw [List.forall_mem_cons] at undone
      simp only [List.mapM_cons, Option.bind_eq_bind, Option.bind_eq_some_iff, Option.pure_def,
        Option.some.injEq] at found
      obtain ⟨original, restoredItem, originals, restoredItems, rfl⟩ := found
      rw [List.map_cons, undone.1 original restoredItem, inductionHypothesis undone.2 restoredItems]

theorem traverseAll_eq_mapM (replace : δ → Option ε) (children : List (Condition δ))
    (finished : List (Condition ε)) :
    traverseAll replace children finished =
      (children.mapM (traverse replace)).map (finished.reverse ++ ·) := by
  induction children generalizing finished with
  | nil => simp [traverseAll]
  | cons child siblings inductionHypothesis =>
      rw [traverseAll, List.mapM_cons]
      cases traverse replace child with
      | none => rfl
      | some replaced =>
          dsimp only
          rw [inductionHypothesis]
          cases siblings.mapM (traverse replace) <;> simp

theorem traverse_all (replace : δ → Option ε) (children : List (Condition δ)) :
    (all children).traverse replace = (children.mapM (traverse replace)).map all := by
  rw [traverse, traverseAll_eq_mapM]
  cases children.mapM (traverse replace) <;> rfl

theorem isSome_traverse_iff {replace : δ → Option ε} {condition : Condition δ} :
    (condition.traverse replace).isSome ↔
      ∀ leaf ∈ condition.tests, (leaf.2.traverse replace).isSome := by
  induction condition using induction with
  | test kind value => simp [traverse]
  | all children inductionHypothesis =>
      rw [traverse_all, Option.isSome_map, isSome_mapM_iff, forall_mem_tests_all_iff]
      exact forall₂_congr inductionHypothesis

/-- Only the values that stand in a condition matter. -/
theorem traverse_congr {first second : δ → Option ε} {condition : Condition δ}
    (same : ∀ leaf ∈ condition.tests, leaf.2.traverse first = leaf.2.traverse second) :
    condition.traverse first = condition.traverse second := by
  induction condition using induction with
  | test kind value =>
      rw [traverse, traverse, same (kind, value) (List.mem_singleton.mpr rfl)]
  | all children inductionHypothesis =>
      rw [forall_mem_tests_all_iff] at same
      rw [traverse_all, traverse_all, mapM_congr fun child membership =>
        inductionHypothesis child membership (same child membership)]

/-- Replacing the dates first and then once more is replacing them at once. -/
theorem traverse_of_map {η : Type} (replace : δ → ε) (restore : ε → Option η)
    (condition : Condition δ) :
    (condition.map replace).traverse restore =
      condition.traverse fun date => restore (replace date) := by
  induction condition using induction with
  | test kind value => cases value <;> rfl
  | all children inductionHypothesis =>
      rw [map_all, traverse_all, traverse_all, List.mapM_map]
      exact congrArg (Option.map all) (mapM_congr inductionHypothesis)

/-- Dates that can be restored one by one can be restored in a condition. -/
theorem traverse_map {replace : δ → ε} {restore : ε → Option δ}
    (restored : ∀ day, restore (replace day) = some day) (condition : Condition δ) :
    (condition.map replace).traverse restore = some condition := by
  induction condition using induction with
  | test kind value => simp [traverse, Value.traverse_map restored value]
  | all children inductionHypothesis =>
      rw [map_all, traverse_all, mapM_map_of_restored inductionHypothesis]
      rfl

/-- A condition whose values are what they were restored from is so as a whole. -/
theorem map_of_traverse {replace : δ → ε} {restore : ε → Option δ} {condition : Condition ε}
    {restored : Condition δ}
    (undone : ∀ leaf ∈ condition.tests, ∀ original, leaf.2.traverse restore = some original →
      original.map replace = leaf.2)
    (found : condition.traverse restore = some restored) :
    restored.map replace = condition := by
  induction condition using induction generalizing restored with
  | test kind value =>
      obtain ⟨original, restoredValue, rfl⟩ := Option.map_eq_some_iff.mp found
      rw [map_test, undone (kind, value) (List.mem_singleton.mpr rfl) original restoredValue]
  | all children inductionHypothesis =>
      rw [forall_mem_tests_all_iff] at undone
      rw [traverse_all] at found
      obtain ⟨originals, restoredAll, rfl⟩ := Option.map_eq_some_iff.mp found
      have undoneBelow : ∀ child ∈ children, ∀ original,
          child.traverse restore = some original → original.map replace = child :=
        fun child membership original =>
          inductionHypothesis child membership (undone child membership)
      rw [map_all, map_of_mapM undoneBelow restoredAll]

end Cohort.Condition
