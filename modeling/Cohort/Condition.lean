/-!
Conditions: what a script asks of an animal.

A condition is a test of one fact, or a block that asks for all of its children.  The type of the
dates in it is a parameter: a script holds calendar dates and a loaded program holds timestamps.
-/

namespace Cohort

inductive Test where
  | bornAfter
  | bornBefore
  | speciesIs
deriving DecidableEq

/-- What a fact is compared with: a literal, or the value bound to a parameter. -/
inductive Value (δ : Type) where
  | reference (name : String)
  | date (date : δ)
  | species (id : Int32)
deriving DecidableEq

/-- A condition on an animal.  A block without children holds for every animal. -/
inductive Condition (δ : Type) where
  | all (children : List (Condition δ))
  | test (test : Test) (value : Value δ)

namespace Condition

variable {δ ε : Type}

def isBlock : Condition δ → Bool
  | all _ => true
  | test _ _ => false

mutual

/-- The number of levels in a condition; a test and a block without children have one. -/
def depth : Condition δ → Nat
  | all children => depthBelow children + 1
  | test _ _ => 1

def depthBelow : List (Condition δ) → Nat
  | [] => 0
  | child :: siblings => max child.depth (depthBelow siblings)

end

mutual

/-- The tests in a condition, from left to right. -/
def tests : Condition δ → List (Test × Value δ)
  | all children => testsBelow children
  | test kind value => [(kind, value)]

def testsBelow : List (Condition δ) → List (Test × Value δ)
  | [] => []
  | child :: siblings => child.tests ++ testsBelow siblings

end

end Condition

def Value.traverse {δ ε : Type} (replace : δ → Option ε) : Value δ → Option (Value ε)
  | .reference name => some (.reference name)
  | .date day => (replace day).map .date
  | .species id => some (.species id)

namespace Condition

variable {δ ε : Type}

mutual

/-- Replace every date in a condition; fails where one replacement does. -/
def traverse (replace : δ → Option ε) : Condition δ → Option (Condition ε)
  | all children => (traverseAll replace children []).map all
  | test kind value => (value.traverse replace).map (test kind)

def traverseAll (replace : δ → Option ε) :
    List (Condition δ) → (finished : List (Condition ε)) → Option (List (Condition ε))
  | [], finished => some finished.reverse
  | child :: siblings, finished =>
      match traverse replace child with
      | none => none
      | some replaced => traverseAll replace siblings (replaced :: finished)

end

end Condition

end Cohort
