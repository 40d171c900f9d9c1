import Cohort.Script.Basic
import Cohort.Script.DateLiteral
import Cohort.Script.Rejection
import Cohort.Token.Scanner

/-!
Reading scripts from tokens.

The grammar is

```text
script    := NAME identifier PARAMETERS (SPECIES identifier)* END ROUTINE condition END
condition := AND { condition* }
           | BORN (AFTER | BEFORE) value ;
           | SPECIES IS value ;
value     := DATE : dateLiteral | PARAM : identifier
```

and every token is decided as it comes: `Progress` is all that has been read so far and what may
come next, `Progress.step` takes one more token, and `parse` drives it over a source of tokens.
Blocks that are still open are kept in a list, so nesting costs no recursion.
-/

namespace Cohort

structure Header where
  name : String
  parameters : List Declaration

/-- A routine of which only a part has been read. -/
structure Routine where
  /-- The open blocks, innermost first, each with its finished children, newest first. -/
  openBlocks : List (List (Condition Date))
  /-- The condition of the whole routine, once it is finished. -/
  root : Option (Condition Date)

namespace Routine

def empty : Routine :=
  ⟨[], none⟩

/-- Check that a condition may start at a position: it must not be nested too deep, nor follow
the condition of the whole routine. -/
def checkStart (limit : Nat) (position : Position) (routine : Routine) : Except Rejection Unit :=
  if limit ≤ routine.openBlocks.length then
    .error (.faulty position (.nestingTooDeep limit))
  else if routine.openBlocks.isEmpty && routine.root.isSome then
    .error (.faulty position .duplicateRoot)
  else
    .ok ()

/-- Put a finished condition into the innermost open block; outside any block it is the condition
of the whole routine. -/
def attach (position : Position) (condition : Condition Date) (routine : Routine) :
    Except Rejection Routine :=
  match routine with
  | ⟨block :: outer, root⟩ => .ok ⟨(condition :: block) :: outer, root⟩
  | ⟨[], none⟩ => .ok ⟨[], some condition⟩
  | ⟨[], some _⟩ => .error (.faulty position .duplicateRoot)

def openBlock (routine : Routine) : Routine :=
  ⟨[] :: routine.openBlocks, routine.root⟩

def closeBlock (position : Position) (routine : Routine) : Except Rejection Routine :=
  match routine with
  | ⟨[], _⟩ => .error (.faulty position .strayClose)
  | ⟨block :: outer, root⟩ => attach position (.all block.reverse) ⟨outer, root⟩

end Routine

/-- A test of which only a part has been read, and what came before it. -/
structure Clause where
  header : Header
  routine : Routine
  /-- Where the test begins. -/
  start : Position

/-- How much of a script has been read, which decides what may come next. -/
inductive Progress where
  /-- Nothing has been read. -/
  | start
  /-- The name of the script comes next. -/
  | scriptName
  /-- The list of parameters comes next. -/
  | parameterList (name : String)
  /-- Some parameters have been read, newest first. -/
  | declarations (name : String) (declared : List Declaration)
  /-- The name of a parameter comes next. -/
  | parameterName (name : String) (declared : List Declaration)
  /-- The routine comes next. -/
  | routineHeading (header : Header)
  /-- A condition may come next, or the end of a block or of the routine. -/
  | conditions (header : Header) (routine : Routine)
  /-- A block has been announced. -/
  | block (header : Header) (routine : Routine)
  /-- A test of the date of birth has been announced. -/
  | bornTest (clause : Clause)
  /-- A test of the species has been announced. -/
  | speciesTest (clause : Clause)
  /-- A value comes next. -/
  | value (clause : Clause) (test : Test)
  /-- A date has been announced. -/
  | dateColon (clause : Clause) (test : Test)
  | date (clause : Clause) (test : Test)
  /-- A reference to a parameter has been announced. -/
  | referenceColon (clause : Clause) (test : Test)
  | reference (clause : Clause) (test : Test)
  /-- A test has been read but for the mark that ends it. -/
  | clauseEnd (clause : Clause) (condition : Condition Date)
  /-- The script has been read. -/
  | complete (script : Script)

def Token.requireText (token : Token) : Except Rejection String :=
  match token.text with
  | some text => .ok text
  | none => .error (.faulty token.position (.missingText token.kind))

namespace Progress

def expected : Progress → List Token.Kind
  | start => [.keyword .name]
  | scriptName => [.identifier]
  | parameterList _ => [.keyword .parameters]
  | declarations _ _ => [.keyword .species, .keyword .finish]
  | parameterName _ _ => [.identifier]
  | routineHeading _ => [.keyword .routine]
  | conditions _ ⟨[], _⟩ =>
      [.keyword .and, .keyword .born, .keyword .species, .keyword .finish]
  | conditions _ ⟨_ :: _, _⟩ =>
      [.keyword .and, .keyword .born, .keyword .species, .mark .rightBrace]
  | block _ _ => [.mark .leftBrace]
  | bornTest _ => [.keyword .after, .keyword .before]
  | speciesTest _ => [.keyword .is]
  | value _ _ => [.keyword .date, .keyword .param]
  | dateColon _ _ | referenceColon _ _ => [.mark .colon]
  | date _ _ => [.dateLiteral]
  | reference _ _ => [.identifier]
  | clauseEnd _ _ => [.mark .semicolon]
  | complete _ => [.endOfInput]

def step (limit : Nat) (progress : Progress) (token : Token) : Except Rejection Progress :=
  match progress, token.kind with
  | start, .keyword .name => .ok scriptName
  | scriptName, .identifier => do
      let name ← token.requireText
      return parameterList name
  | parameterList name, .keyword .parameters => .ok (declarations name [])
  | declarations name declared, .keyword .species => .ok (parameterName name declared)
  | declarations name declared, .keyword .finish => .ok (routineHeading ⟨name, declared.reverse⟩)
  | parameterName name declared, .identifier => do
      let parameter ← token.requireText
      if declared.any (·.name == parameter) then
        .error (.faulty token.position (.duplicateParameter parameter))
      else
        return declarations name (⟨parameter, .species⟩ :: declared)
  | routineHeading header, .keyword .routine => .ok (conditions header .empty)
  | conditions header routine, .keyword .and => do
      routine.checkStart limit token.position
      return block header routine
  | conditions header routine, .keyword .born => do
      routine.checkStart limit token.position
      return bornTest ⟨header, routine, token.position⟩
  | conditions header routine, .keyword .species => do
      routine.checkStart limit token.position
      return speciesTest ⟨header, routine, token.position⟩
  | conditions header routine, .mark .rightBrace => do
      let routine ← routine.closeBlock token.position
      return conditions header routine
  | conditions header ⟨[], root⟩, .keyword .finish =>
      match root with
      | some root => .ok (complete ⟨header.name, header.parameters, root⟩)
      | none => .error (.faulty token.position .emptyRoutine)
  | block header routine, .mark .leftBrace => .ok (conditions header routine.openBlock)
  | bornTest clause, .keyword .after => .ok (value clause .bornAfter)
  | bornTest clause, .keyword .before => .ok (value clause .bornBefore)
  | speciesTest clause, .keyword .is => .ok (value clause .speciesIs)
  | value clause test, .keyword .date => .ok (dateColon clause test)
  | value clause test, .keyword .param => .ok (referenceColon clause test)
  | dateColon clause test, .mark .colon => .ok (date clause test)
  | referenceColon clause test, .mark .colon => .ok (reference clause test)
  | date clause test, .dateLiteral => do
      let literal ← token.requireText
      match Date.ofLiteral? literal with
      | some day => return clauseEnd clause (.test test (.date day))
      | none => .error (.faulty token.position (.invalidDate literal))
  | reference clause test, .identifier => do
      let name ← token.requireText
      if clause.header.parameters.any (·.name == name) then
        return clauseEnd clause (.test test (.reference name))
      else
        .error (.faulty token.position (.undeclaredParameter name))
  | clauseEnd clause condition, .mark .semicolon => do
      let routine ← clause.routine.attach clause.start condition
      return conditions clause.header routine
  | progress, _ => .error (.unexpected token progress.expected)

/-- The end of the input is not a token that can be taken. -/
theorem step_of_ended {limit : Nat} {progress : Progress} {token : Token}
    (ended : token.kind = .endOfInput) :
    progress.step limit token = .error (.unexpected token progress.expected) := by
  cases progress with
  | _ => simp only [step, ended]

/-- The script, if the end of the input may come next. -/
def finish (progress : Progress) (token : Token) : Except Rejection Script :=
  match progress with
  | complete script => .ok script
  | progress => .error (.unexpected token progress.expected)

variable {σ : Type} [TokenSource σ]

def run (limit : Nat) (progress : Progress) (source : σ) : Except Rejection Script :=
  let next := TokenSource.next source
  if _ended : next.1.kind = .endOfInput then
    progress.finish next.1
  else
    match progress.step limit next.1 with
    | .error rejection => .error rejection
    | .ok progress => run limit progress next.2
termination_by TokenSource.remaining source
decreasing_by exact TokenSource.remaining_next source _ended

theorem run_of_ended {limit : Nat} {progress : Progress} {source : σ}
    (ended : (TokenSource.next source).1.kind = .endOfInput) :
    progress.run limit source = progress.finish (TokenSource.next source).1 := by
  rw [run]
  exact dif_pos ended

theorem run_of_token {limit : Nat} {progress : Progress} {source : σ}
    (unfinished : (TokenSource.next source).1.kind ≠ .endOfInput) :
    progress.run limit source =
      (progress.step limit (TokenSource.next source).1).bind fun progress =>
        progress.run limit (TokenSource.next source).2 := by
  rw [run]
  simp only [unfinished, dite_false]
  cases progress.step limit (TokenSource.next source).1 <;> rfl

end Progress

namespace Script

/-- Read a script from a source of tokens.  The whole condition is at level 1, and no condition
may be at a deeper level than `maxDepth`. -/
def parse {σ : Type} [TokenSource σ] (source : σ) (maxDepth : Nat) :
    Except Rejection Script :=
  Progress.start.run maxDepth source

def ofSource (source : String) (maxDepth : Nat) : Except Rejection Script :=
  parse (Scanner.ofString source) maxDepth

end Script

end Cohort
