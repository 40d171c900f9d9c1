import Cohort.Bytecode.Compilation
import Cohort.Bytecode.Loading
import Cohort.Script.Parsing

/-!
Loading programs from source text.

The text is read, compiled and loaded again, so a program from source holds nothing that bytecode
could not hold.
-/

namespace Cohort

inductive SourceError where
  | rejected (rejection : Rejection)
  | notCompiled (problem : CompileError)
  | notLoaded (problem : LoadError)

def SourceError.message : SourceError → String
  | rejected rejection => rejection.message
  | notCompiled problem => problem.message
  | notLoaded problem => problem.message

/-- Load a program from source text.  The limit on nesting also holds while reading. -/
def Program.ofSource (limits : Limits) (source : String) : Except SourceError Program :=
  match Script.ofSource source limits.maxDepth with
  | .error rejection => .error (.rejected rejection)
  | .ok script =>
      match script.compile with
      | .error problem => .error (.notCompiled problem)
      | .ok image =>
          match Program.load limits image with
          | .error problem => .error (.notLoaded problem)
          | .ok program => .ok program

end Cohort
