import Cohort.NameMap
import Cohort.Text.Double

/-!
JSON values and their compact text.

A number is kept as it was written: whole numbers of up to 64 bits exactly, all others as a
decimal that is only rounded when it is shown.  `Json.compact` writes a value without blanks and
with the members of every object in the order of their names.
-/

namespace Cohort

inductive Json.Number where
  /-- A number written without a point or an exponent that fits 64 bits. -/
  | whole (value : Int)
  /-- Any other number: a sign and `significand * 10 ^ exponent`. -/
  | decimal (negative : Bool) (significand : Nat) (exponent : Int)
deriving DecidableEq

/-- A JSON value.  An object may name a member twice; the last one counts. -/
inductive Json where
  | null
  | bool (value : Bool)
  | number (value : Json.Number)
  | string (value : String)
  | array (items : List Json)
  | object (members : List (String × Json))

namespace Json

def ofInt (value : Int) : Json :=
  number (.whole value)

def ofNat (value : Nat) : Json :=
  ofInt value

/-- A number as text; a decimal is rounded to a double. -/
def Number.text : Number → String
  | whole value => toString value
  | decimal negative significand exponent =>
      let sign := if negative then ['-'] else []
      String.ofList (sign ++ Text.doubleText (Text.scaledDouble significand exponent))

def hexDigit (value : Nat) : Char :=
  Nat.digitChar (value % 16)

/-- Add a character to a quoted text.  Quotes, backslashes and control characters are escaped. -/
def pushQuoted (text : String) (character : Char) : String :=
  match character with
  | '"' => text ++ "\\\""
  | '\\' => text ++ "\\\\"
  | '\n' => text ++ "\\n"
  | '\r' => text ++ "\\r"
  | '\t' => text ++ "\\t"
  | '\x08' => text ++ "\\b"
  | '\x0c' => text ++ "\\f"
  | _ =>
      let code := character.toNat
      if code < 32 then
        ((text ++ "\\u00").push (hexDigit (code / 16))).push (hexDigit code)
      else
        text.push character

def quoted (text : String) : String :=
  (text.toList.foldl pushQuoted "\"").push '"'

mutual

/-- The text of a value without blanks, the members of objects in the order of their names. -/
def compact : Json → String
  | null => "null"
  | bool true => "true"
  | bool false => "false"
  | number value => value.text
  | string value => quoted value
  | array items => "[" ++ ",".intercalate (itemTexts items []) ++ "]"
  | object members =>
      let sorted := (NameMap.ofEntries (memberTexts members [])).toList
      "\x7b" ++ ",".intercalate (sorted.map fun entry => quoted entry.1 ++ ":" ++ entry.2) ++ "\x7d"

def itemTexts : List Json → (finished : List String) → List String
  | [], finished => finished.reverse
  | item :: items, finished => itemTexts items (item.compact :: finished)

def memberTexts :
    List (String × Json) → (finished : List (String × String)) → List (String × String)
  | [], finished => finished.reverse
  | (name, value) :: members, finished => memberTexts members ((name, value.compact) :: finished)

end

end Json

end Cohort
