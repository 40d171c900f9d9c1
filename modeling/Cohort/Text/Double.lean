/-!
Double-precision numbers as text.

`scaledDouble` is the double read from a whole number and a power of ten, and `shortestDecimal`
the decimal with the fewest digits that a double is read back from.  `doubleText` lays those
digits out.
-/

namespace Cohort.Text

/-! ### Reading -/

def powerOfTen (exponent : Nat) : Float :=
  Float.ofScientific 1 false exponent

def divideByPower : (steps : Nat) → (value : Float) → (places : Nat) → Float
  | 0, value, _ => value
  | steps + 1, value, places =>
      if places ≤ 308 then
        value / powerOfTen places
      else
        divideByPower steps (value / powerOfTen 308) (places - 308)

/-- A whole number of at most 64 bits times a power of ten, computed in double precision.  Zero
stays zero at any power, and what is too large becomes infinite. -/
def scaledDouble (significand : Nat) (exponent : Int) : Float :=
  let value := (UInt64.ofNat significand).toFloat
  match exponent with
  | .ofNat places =>
      if places ≤ 308 then value * powerOfTen places else if significand = 0 then 0 else value / 0
  | .negSucc places => divideByPower 4 value (places + 1)

/-! ### Shortest digits -/

/-- A finite positive double: `mantissa * 2 ^ exponent`. -/
structure Binary where
  mantissa : Nat
  exponent : Int
  /-- Whether the next smaller double is only half as far away as the next larger one. -/
  narrowBelow : Bool

def Binary.ofFloat (value : Float) : Binary :=
  let bits := value.toBits.toNat
  let fraction : Nat := bits % Nat.pow 2 52
  let scale : Nat := bits / Nat.pow 2 52 % Nat.pow 2 11
  if scale = 0 then
    ⟨fraction, -1074, false⟩
  else
    ⟨Nat.pow 2 52 + fraction, (scale : Int) - 1075, fraction = 0 ∧ 1 < scale⟩

/-- The decimal `digits * 10 ^ exponent`. -/
structure Decimal where
  digits : Nat
  exponent : Int

/-- Compare `first * 10 ^ ten` with `second * 2 ^ two`, exactly. -/
def compareScaled (first : Nat) (ten : Int) (second : Nat) (two : Int) : Ordering :=
  compare (first * Nat.pow 10 ten.toNat * Nat.pow 2 (-two).toNat)
    (second * Nat.pow 2 two.toNat * Nat.pow 10 (-ten).toNat)

/-- Whether a double is the one nearest to a decimal; of two equally near the even one counts. -/
def Binary.isNearest (value : Binary) (decimal : Decimal) : Bool :=
  let low := 4 * value.mantissa - (if value.narrowBelow then 1 else 2)
  let high := 4 * value.mantissa + 2
  let fromLow := compareScaled decimal.digits decimal.exponent low (value.exponent - 2)
  let fromHigh := compareScaled decimal.digits decimal.exponent high (value.exponent - 2)
  let endsCount := value.mantissa % 2 == 0
  (fromLow == .gt || endsCount && fromLow == .eq)
    && (fromHigh == .lt || endsCount && fromHigh == .eq)

/-- The number of digits before the point; for a value below one it counts the zeros after the
point and is not positive. -/
def Binary.magnitude (value : Binary) : Int :=
  ((List.range 640).map fun (index : Nat) => (index : Int) - 325).find?
    (fun exponent => compareScaled 1 exponent value.mantissa value.exponent == .gt) |>.getD 310

/-- The greatest whole number of times that a power of ten goes into a double. -/
def Binary.wholePart (value : Binary) (exponent : Int) : Nat :=
  value.mantissa * Nat.pow 2 value.exponent.toNat * Nat.pow 10 (-exponent).toNat
    / (Nat.pow 10 exponent.toNat * Nat.pow 2 (-value.exponent).toNat)

/-- The decimal with a given exponent that is read back as a double, if there is one: the nearer
of the two next to the double, or the even one. -/
def Binary.decimalWith? (value : Binary) (exponent : Int) : Option Decimal :=
  let below := value.wholePart exponent
  let candidates := [Decimal.mk below exponent, ⟨below + 1, exponent⟩].filter value.isNearest
  match candidates with
  | [low, high] =>
      match compareScaled (2 * below + 1) exponent (2 * value.mantissa) value.exponent with
      | .gt => some low
      | .lt => some high
      | .eq => some (if below % 2 = 0 then low else high)
  | candidate :: _ => some candidate
  | [] => none

/-- The decimal with a given number of digits that is read back as a double, if there is one. -/
def Binary.decimalOfLength? (value : Binary) (length : Nat) : Option Decimal :=
  value.decimalWith? (value.magnitude - length)

def Decimal.strip : (steps : Nat) → Decimal → Decimal
  | 0, decimal => decimal
  | steps + 1, decimal =>
      if decimal.digits % 10 = 0 ∧ decimal.digits ≠ 0 then
        strip steps ⟨decimal.digits / 10, decimal.exponent + 1⟩
      else
        decimal

/-- The decimal with the fewest digits that is read back as a double.  Seventeen digits are
always enough. -/
def Binary.shortestDecimal (value : Binary) : Decimal :=
  (((List.range 17).findSome? fun index => value.decimalOfLength? (index + 1)).getD
    ⟨value.mantissa, 0⟩).strip 17

/-! ### Layout -/

/-- Lay out digits and a power of ten: with a point where that needs at most sixteen places
before it or four zeros after it, and with an exponent otherwise.  An exponent is always written
with its sign and with no zero in front. -/
def Decimal.text (decimal : Decimal) : List Char :=
  let digits := Nat.toDigits 10 decimal.digits
  let point := (digits.length : Int) + decimal.exponent
  if 0 ≤ decimal.exponent ∧ point ≤ 16 then
    digits ++ List.replicate decimal.exponent.toNat '0' ++ ['.', '0']
  else if 0 < point ∧ point ≤ 16 then
    digits.take point.toNat ++ '.' :: digits.drop point.toNat
  else if -5 < point ∧ point ≤ 0 then
    '0' :: '.' :: List.replicate point.natAbs '0' ++ digits
  else
    let exponent := point - 1
    let sign := if exponent < 0 then '-' else '+'
    let fraction := digits.drop 1
    digits.take 1 ++ (if fraction = [] then [] else '.' :: fraction)
      ++ 'e' :: sign :: Nat.toDigits 10 exponent.natAbs

def doubleText (value : Float) : List Char :=
  if value == 0 then ['0', '.', '0'] else (Binary.ofFloat value).shortestDecimal.text

end Cohort.Text
