import Cohort.Json.Basic

/-!
Reading JSON text.

`Json.ofText?` accepts the JSON grammar and nothing else: no comments, no blanks but the four that
the grammar names, no leading zeros, no trailing commas and nothing after the value.
-/

namespace Cohort.Json

def skipBlanks (text : List Char) : List Char :=
  text.dropWhile fun character =>
    character == ' ' || character == '\n' || character == '\r' || character == '\t'

def hexValue? (digit : Char) : Option Nat :=
  if digit.isDigit then some (digit.toNat - '0'.toNat)
  else if 'a' ≤ digit ∧ digit ≤ 'f' then some (digit.toNat - 'a'.toNat + 10)
  else if 'A' ≤ digit ∧ digit ≤ 'F' then some (digit.toNat - 'A'.toNat + 10)
  else none

def hexUnit? (first second third fourth : Char) : Option Nat := do
  return (((← hexValue? first) * 16 + (← hexValue? second)) * 16 + (← hexValue? third)) * 16
    + (← hexValue? fourth)

/-- Whether a 16-bit unit is the first of a pair that stands for one character. -/
def isLeadingUnit (unit : Nat) : Bool :=
  0xD800 ≤ unit && unit < 0xDC00

def isTrailingUnit (unit : Nat) : Bool :=
  0xDC00 ≤ unit && unit < 0xE000

def escaped? : Char → Option Char
  | '"' => some '"'
  | '\\' => some '\\'
  | '/' => some '/'
  | 'b' => some '\x08'
  | 'f' => some '\x0c'
  | 'n' => some '\n'
  | 'r' => some '\r'
  | 't' => some '\t'
  | _ => none

/-- Read the rest of a quoted text, after the characters read so far, newest first. -/
def readQuoted? : List Char → (read : List Char) → Option (String × List Char)
  | [], _ => none
  | '"' :: rest, read => some (String.ofList read.reverse, rest)
  | '\\' :: 'u' :: a :: b :: c :: d :: rest, read =>
      match hexUnit? a b c d with
      | none => none
      | some unit =>
          if isTrailingUnit unit then
            none
          else if isLeadingUnit unit then
            match rest with
            | '\\' :: 'u' :: e :: f :: g :: h :: rest =>
                match hexUnit? e f g h with
                | none => none
                | some second =>
                    if isTrailingUnit second then
                      let code := 0x10000 + (unit - 0xD800) * 0x400 + (second - 0xDC00)
                      readQuoted? rest (Char.ofNat code :: read)
                    else
                      none
            | _ => none
          else
            readQuoted? rest (Char.ofNat unit :: read)
  | '\\' :: letter :: rest, read =>
      match escaped? letter with
      | none => none
      | some character => readQuoted? rest (character :: read)
  | character :: rest, read =>
      if character.toNat < 32 ∨ character = '\\' then none
      else readQuoted? rest (character :: read)

/-- Append digits to a value for as long as it fits 64 bits.  Gives the number of digits left out
as well. -/
def appendDigits : (value : Nat) → (digits : List Char) → Nat × Nat
  | value, [] => (value, 0)
  | value, digit :: digits =>
      let next := value * 10 + (digit.toNat - '0'.toNat)
      if next < Nat.pow 2 64 then appendDigits next digits else (value, digits.length + 1)

def readExponent? : List Char → Option (Option Int × List Char)
  | 'e' :: rest | 'E' :: rest =>
      let (sign, rest) := match rest with
        | '+' :: rest => ((1 : Int), rest)
        | '-' :: rest => (-1, rest)
        | _ => (1, rest)
      let digits := rest.takeWhile Char.isDigit
      if digits = [] then none
      else some (some (sign * Nat.ofDigitChars 10 digits 0), rest.dropWhile Char.isDigit)
  | rest => some (none, rest)

/-- Read a number.  A whole number that does not fit 64 bits becomes a decimal, and so does a
negative zero.  From where the significand of a decimal would no longer fit 64 bits, the digits
before the point are taken as zeros, and those after it are left out. -/
def readNumber? (text : List Char) : Option (Number × List Char) := do
  let (negative, rest) := match text with
    | '-' :: rest => (true, rest)
    | _ => (false, text)
  let digits := rest.takeWhile Char.isDigit
  let rest := rest.dropWhile Char.isDigit
  guard (digits ≠ [] ∧ (digits.length = 1 ∨ digits.head? ≠ some '0'))
  let (fraction, rest) ← match rest with
    | '.' :: rest =>
        let fraction := rest.takeWhile Char.isDigit
        if fraction = [] then none else some (some fraction, rest.dropWhile Char.isDigit)
    | _ => some (none, rest)
  let (exponent, rest) ← readExponent? rest
  let value := Nat.ofDigitChars 10 digits 0
  let isWhole := fraction.isNone && exponent.isNone
    && (if negative then 0 < value && value ≤ Nat.pow 2 63 else value < Nat.pow 2 64)
  if isWhole then
    return (.whole (if negative then -value else value), rest)
  else
    let fraction := fraction.getD []
    let (significand, omitted) := appendDigits 0 digits
    let (significand, ignored) := appendDigits significand fraction
    return (.decimal negative significand
      (exponent.getD 0 + omitted - (fraction.length - ignored)), rest)

mutual

/-- Read a value.  Every call spends one unit of `fuel`. -/
def readValue? : (fuel : Nat) → List Char → Option (Json × List Char)
  | 0, _ => none
  | fuel + 1, text =>
      match skipBlanks text with
      | 'n' :: 'u' :: 'l' :: 'l' :: rest => some (null, rest)
      | 't' :: 'r' :: 'u' :: 'e' :: rest => some (bool true, rest)
      | 'f' :: 'a' :: 'l' :: 's' :: 'e' :: rest => some (bool false, rest)
      | '"' :: rest => (readQuoted? rest []).map fun (value, rest) => (string value, rest)
      | '[' :: rest =>
          match skipBlanks rest with
          | ']' :: rest => some (array [], rest)
          | rest => readItems? fuel rest []
      | '\x7b' :: rest =>
          match skipBlanks rest with
          | '\x7d' :: rest => some (object [], rest)
          | rest => readMembers? fuel rest []
      | rest => (readNumber? rest).map fun (value, rest) => (number value, rest)

def readItems? : (fuel : Nat) → List Char → (read : List Json) → Option (Json × List Char)
  | 0, _, _ => none
  | fuel + 1, text, read =>
      match readValue? fuel text with
      | none => none
      | some (item, rest) =>
          match skipBlanks rest with
          | ',' :: rest => readItems? fuel rest (item :: read)
          | ']' :: rest => some (array (item :: read).reverse, rest)
          | _ => none

def readMembers? :
    (fuel : Nat) → List Char → (read : List (String × Json)) → Option (Json × List Char)
  | 0, _, _ => none
  | fuel + 1, text, read =>
      match skipBlanks text with
      | '"' :: rest =>
          match readQuoted? rest [] with
          | none => none
          | some (name, rest) =>
              match skipBlanks rest with
              | ':' :: rest =>
                  match readValue? fuel rest with
                  | none => none
                  | some (value, rest) =>
                      match skipBlanks rest with
                      | ',' :: rest => readMembers? fuel rest ((name, value) :: read)
                      | '\x7d' :: rest => some (object ((name, value) :: read).reverse, rest)
                      | _ => none
              | _ => none
      | _ => none

end

/-- Read a JSON value from a text that holds nothing else.  No value takes more calls than the
text has characters, but for the first. -/
def ofText? (text : String) : Option Json :=
  let characters := text.toList
  match readValue? (characters.length + 1) characters with
  | some (value, rest) => if skipBlanks rest = [] then some value else none
  | none => none

end Cohort.Json
