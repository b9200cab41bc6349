import CodeContext.Number.Binary64

/-!
# One decimal place

The text of a number with exactly one decimal place. The exact binary value is rounded, a tie to the
even digit, and all digits before the point are written. The sign of a zero is kept.
-/

namespace CodeContext.Binary64

/-- The absolute value in tenths, rounded. -/
def tenths (x : Binary64) : Nat :=
  roundHalfEven (x.ratio.1 * 10) x.ratio.2

/-- The text with one decimal place. -/
def tenthsText (x : Binary64) : String :=
  if x.isNaN then "NaN"
  else
    let sign := if x.negative then "-" else ""
    if x.isInfinite then sign ++ "inf"
    else sign ++ toString (x.tenths / 10) ++ "." ++ toString (x.tenths % 10)

end CodeContext.Binary64
