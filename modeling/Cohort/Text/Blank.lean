/-!
White space in source text.

A character is blank exactly when Unicode gives it the property `White_Space`;
the table below lists the 25 such code points as closed ranges.
-/

namespace Cohort.Text

/-- The code points with the property `White_Space`, as closed ranges in order. -/
def blankRanges : List (Nat × Nat) :=
  [(0x0009, 0x000D), (0x0020, 0x0020), (0x0085, 0x0085), (0x00A0, 0x00A0),
   (0x1680, 0x1680), (0x2000, 0x200A), (0x2028, 0x2029), (0x202F, 0x202F),
   (0x205F, 0x205F), (0x3000, 0x3000)]

/-- Whether a character separates words without being part of any token. -/
def isBlank (character : Char) : Bool :=
  blankRanges.any fun range => range.1 ≤ character.toNat && character.toNat ≤ range.2

end Cohort.Text
