import Cohort.Calendar.Date

/-!
The date that a literal of the shape `DD/MM/YYYY` stands for.

The reading takes day, month and year from the first three parts between slashes and asks of each
only that it is a number of the right size, so it also reads texts that the scanner would take for
identifiers.
-/

namespace Cohort

open Text

def readPlusNatural? : List Char → Option Nat
  | '+' :: digits => readNatural? digits
  | digits => readNatural? digits

def readSigned? : List Char → Option Int
  | '-' :: digits => (readNatural? digits).map fun size => -(size : Int)
  | digits => (readPlusNatural? digits).map fun size => (size : Int)

def splitAtSlash? (text : List Char) : Option (List Char × List Char) :=
  match text.dropWhile (· != '/') with
  | [] => none
  | _ :: rest => some (text.takeWhile (· != '/'), rest)

/-- The date that a literal stands for, if the calendar has it.  Anything after a third slash is
ignored. -/
def Date.ofLiteral? (literal : String) : Option Date := do
  let (dayText, rest) ← splitAtSlash? literal.toList
  let (monthText, rest) ← splitAtSlash? rest
  let day ← readPlusNatural? dayText
  let month ← readPlusNatural? monthText
  let year ← readSigned? (rest.takeWhile (· != '/'))
  Date.ofCalendar? year month day

end Cohort
