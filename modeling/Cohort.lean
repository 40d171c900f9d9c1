import Cohort.Json.Animal
import Cohort.Json.Limits
import Cohort.Json.Script
import Cohort.Program.FromSource
import Cohort.Program.Listing
import Cohort.Program.Matching
import Cohort.Proofs.Program.Meaning
import Cohort.Proofs.Bytecode.Recompilation
import Cohort.Proofs.Bytecode.Faults
import Cohort.Proofs.Program.Refusal
import Cohort.Proofs.Program.Deciding
import Cohort.Proofs.Token.Split
import Cohort.Proofs.Script.Nesting
import Cohort.Proofs.Bytecode.Cutting
import Cohort.Proofs.Script.Expressibility
import Cohort.Proofs.Script.Expectation
import Cohort.Proofs.Program.Lookups
import Cohort.Proofs.Program.Listing
import Cohort.Proofs.Calendar.Counting
import Cohort.Proofs.Program.Restoring
import Cohort.Proofs.Bytecode.Limits
import Cohort.Proofs.Script.Interchange
import Cohort.Proofs.Program.Independence
import Cohort.Proofs.Bytecode.Evidence
import Cohort.Proofs.Facts.Birth
import Cohort.Proofs.Program.ListedDates
import Cohort.Proofs.Script.Completion
import Cohort.Proofs.Script.DateTokens
import Cohort.Proofs.Script.DatePlace
import Cohort.Proofs.Token.Continuation
import Cohort.Proofs.Script.DatedClause
import Cohort.Proofs.Text.Utf8Order
import Cohort.Proofs.Facts.Bindings
import Cohort.Proofs.Script.OpenBlocks
