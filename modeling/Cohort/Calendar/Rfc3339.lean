import Cohort.Calendar.Timestamp

/-!
Timestamps as text.

`Timestamp.rfc3339?` writes the internet date and time format of RFC 3339, and
`Timestamp.ofRfc3339?` reads it.  A timestamp that the format cannot express is written by
`Timestamp.extended` instead.  `Timestamp.ofText?` also reads a bare date as its start in UTC.
-/

namespace Cohort

namespace Timestamp

open Text

/-! ### Writing -/

/-- The digits of a fraction of a second, without zeros at the end. -/
def fractionDigits (nanosecond : Nat) : List Char :=
  dropTrailingZeros (fixedWidth 9 nanosecond)

def offsetText (offset : UtcOffset) : List Char :=
  let (hours, minutes, _) := offset.parts
  if offset = .utc then
    ['Z']
  else
    (if offset.isBehind then '-' else '+') :: fixedWidth 2 hours.natAbs
      ++ ':' :: fixedWidth 2 minutes.natAbs

/-- Whether RFC 3339 can express a timestamp: four digits hold the year, and the offset has
whole minutes and less than a day. -/
def isRfc3339 (timestamp : Timestamp) : Bool :=
  let (hours, _, seconds) := timestamp.offset.parts
  0 ≤ timestamp.date.year && hours.natAbs ≤ 23 && seconds == 0

def rfc3339 (timestamp : Timestamp) : List Char :=
  let fraction := fractionDigits timestamp.time.nanosecond
  timestamp.date.text.toList ++ 'T' :: fixedWidth 2 timestamp.time.hour
    ++ ':' :: fixedWidth 2 timestamp.time.minute
    ++ ':' :: fixedWidth 2 timestamp.time.second
    ++ (if fraction = [] then [] else '.' :: fraction)
    ++ offsetText timestamp.offset

/-- A timestamp in a form that can express every one: the hour is not padded, the fraction has
at least one digit and the offset shows its seconds. -/
def extended (timestamp : Timestamp) : List Char :=
  let fraction := fractionDigits timestamp.time.nanosecond
  let (hours, minutes, seconds) := timestamp.offset.parts
  timestamp.date.text.toList ++ ' ' :: Nat.toDigits 10 timestamp.time.hour
    ++ ':' :: fixedWidth 2 timestamp.time.minute
    ++ ':' :: fixedWidth 2 timestamp.time.second
    ++ '.' :: (if fraction = [] then ['0'] else fraction)
    ++ ' ' :: (if timestamp.offset.isBehind then '-' else '+') :: fixedWidth 2 hours.natAbs
    ++ ':' :: fixedWidth 2 minutes.natAbs
    ++ ':' :: fixedWidth 2 seconds.natAbs

def text (timestamp : Timestamp) : String :=
  String.ofList (if timestamp.isRfc3339 then timestamp.rfc3339 else timestamp.extended)

/-! ### Reading -/

def readDateParts? (text : List Char) : Option ((Nat × Nat × Nat) × List Char) := do
  let (year, rest) ← readFixedWidth? 4 text
  let (month, rest) ← readFixedWidth? 2 (← readMark? '-' rest)
  let (day, rest) ← readFixedWidth? 2 (← readMark? '-' rest)
  return ((year, month, day), rest)

def readClockParts? (text : List Char) : Option ((Nat × Nat × Nat) × List Char) := do
  let (hour, rest) ← readFixedWidth? 2 text
  let (minute, rest) ← readFixedWidth? 2 (← readMark? ':' rest)
  let (second, rest) ← readFixedWidth? 2 (← readMark? ':' rest)
  return ((hour, minute, second), rest)

/-- Read an optional fraction of a second as nanoseconds.  A point must be followed by a digit,
and digits beyond the ninth are skipped. -/
def readFraction? (text : List Char) : Option (Nat × List Char) :=
  match text with
  | '.' :: rest =>
      let digits := rest.takeWhile Char.isDigit
      if digits = [] then
        none
      else
        let kept := digits.take 9
        some (digitsValue kept * Nat.pow 10 (9 - kept.length), rest.dropWhile Char.isDigit)
  | _ => some (0, text)

def readOffset? : List Char → Option UtcOffset
  | ['Z'] | ['z'] => some .utc
  | sign :: rest => do
      let behind ← if sign = '-' then some true else if sign = '+' then some false else none
      let (hours, rest) ← readFixedWidth? 2 rest
      let (minutes, rest) ← readFixedWidth? 2 (← readMark? ':' rest)
      if rest = [] ∧ hours ≤ 23 ∧ minutes ≤ 59 then
        let direction : Int := if behind then -1 else 1
        UtcOffset.ofParts? (direction * hours) (direction * minutes) 0
      else
        none
  | [] => none

/-- Read a timestamp in the format of RFC 3339.  One ASCII character of any kind separates the
date from the time.  A leap second is read as the nanosecond before it, and only where one may
be inserted. -/
def ofRfc3339? (text : List Char) : Option Timestamp := do
  let ((year, month, day), rest) ← readDateParts? text
  let separator ← rest.head?
  guard (separator.toNat < 128)
  let ((hour, minute, second), rest) ← readClockParts? rest.tail
  let (nanosecond, rest) ← readFraction? rest
  let offset ← readOffset? rest
  let date ← Date.ofCalendar? year month day
  if second = 60 then
    let time ← TimeOfDay.ofParts? hour minute 59 999999999
    let timestamp : Timestamp := ⟨date, time, offset⟩
    if timestamp.precedesLeapSecond then some timestamp else none
  else
    let time ← TimeOfDay.ofParts? hour minute second nanosecond
    return ⟨date, time, offset⟩

def readDate? (text : List Char) : Option Date := do
  let (sign, digits) := match text with
    | '-' :: rest => ((-1 : Int), rest)
    | '+' :: rest => (1, rest)
    | _ => (1, text)
  let ((year, month, day), rest) ← readDateParts? digits
  if rest = [] then Date.ofCalendar? (sign * year) month day else none

/-- Read a timestamp in the format of RFC 3339, or a date as its start in UTC. -/
def ofText? (text : String) : Option Timestamp :=
  ofRfc3339? text.toList <|> (readDate? text.toList).map Date.midnight

end Timestamp

end Cohort
