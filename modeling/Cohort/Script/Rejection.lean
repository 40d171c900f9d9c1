import Cohort.Token.Basic

/-!
Why a text is not a script.

A `Rejection` is either a token that the grammar does not allow where it stands, or a fault in
tokens that the grammar allows.
-/

namespace Cohort

/-- Faults of scripts that no single token shows. -/
inductive Fault where
  | duplicateRoot
  | strayClose
  | emptyRoutine
  | duplicateParameter (name : String)
  | undeclaredParameter (name : String)
  | invalidDate (literal : String)
  | nestingTooDeep (limit : Nat)
  | missingText (kind : Token.Kind)
deriving DecidableEq

def Fault.message : Fault → String
  | .duplicateRoot => "There can only be one top-level action"
  | .strayClose => "'\x7d' does not close any open block"
  | .emptyRoutine => "routine has no action"
  | .duplicateParameter name => "parameter '" ++ name ++ "' is declared more than once"
  | .undeclaredParameter name => "parameter '" ++ name ++ "' is not declared"
  | .invalidDate literal => "'" ++ literal ++ "' is not a calendar date"
  | .nestingTooDeep limit => "actions nest deeper than " ++ toString limit ++ " levels"
  | .missingText kind => kind.text ++ " token carries no text"

/-- The first reason why tokens do not make a script. -/
inductive Rejection where
  /-- The grammar allows other kinds of token where this one stands. -/
  | unexpected (found : Token) (expected : List Token.Kind)
  | faulty (position : Position) (fault : Fault)
deriving DecidableEq

namespace Rejection

def position : Rejection → Position
  | unexpected found _ => found.position
  | faulty position _ => position

def expectation : List Token.Kind → String
  | [] => "nothing"
  | [kind] => kind.text
  | kinds => "one of " ++ ", ".intercalate (kinds.map Token.Kind.text)

def tokenName (token : Token) : String :=
  match token.text with
  | none => token.kind.text
  | some text => token.kind.text ++ " '" ++ text ++ "'"

def message : Rejection → String
  | unexpected found expected =>
      "syntax error at " ++ found.position.text ++ ": unexpected " ++ tokenName found
        ++ ", expected " ++ expectation expected
  | faulty position fault => position.text ++ ": " ++ fault.message

end Rejection

end Cohort
