import CodeContext.Text.Lowercase
import CodeContext.Number.Shortest

/-!
# Number literals

A literal is an optional sign and then `inf`, `infinity` or `nan` in any letter case, or digits with
an optional point and an optional exponent. It stands for the binary number nearest to its exact
value.
-/

namespace CodeContext

/-- The number that a run of digits stands for. -/
def digitsValue (ds : List Char) : Nat :=
  ds.foldl (fun n c => n * 10 + (c.toNat - 48)) 0

namespace Literal

/-- An exponent after its mark: an optional sign and at least one digit, and nothing after it. -/
def exponent (cs : List Char) : Option Int :=
  let signed := cs.head? == some '-'
  let ds := if signed || cs.head? == some '+' then cs.drop 1 else cs
  if ds.isEmpty || !ds.all Char.isDigit then none
  else some (if signed then -(digitsValue ds : Int) else digitsValue ds)

/-- The magnitude nearest to a decimal. One far outside the range is not computed. -/
def magnitude (digits : List Char) (exponent : Int) : Nat :=
  let ds := digits.dropWhile (· == '0')
  let log := exponent + ds.length
  if ds.isEmpty || log < -400 then 0
  else if 400 < log then Binary64.infinite
  else Decimal.nearest ⟨digitsValue ds, exponent⟩

/-- The magnitude of a literal without a sign. -/
def unsigned (cs : List Char) : Option Nat :=
  let word := String.ofList (cs.map Text.lowerAscii)
  if word = "inf" || word = "infinity" then some Binary64.infinite
  else if word = "nan" then some (Binary64.infinite + Nat.pow 2 51)
  else
    let whole := cs.takeWhile Char.isDigit
    let rest := cs.dropWhile Char.isDigit
    let places := if rest.head? == some '.' then (rest.drop 1).takeWhile Char.isDigit else []
    let rest := if rest.head? == some '.' then (rest.drop 1).dropWhile Char.isDigit else rest
    if whole.isEmpty && places.isEmpty then none
    else
      match rest with
      | [] => some (magnitude (whole ++ places) (-(places.length : Int)))
      | mark :: power =>
        if mark = 'e' || mark = 'E' then
          (exponent power).map fun e => magnitude (whole ++ places) (e - places.length)
        else none

end Literal

namespace Binary64

/-- Reads a number literal. -/
def ofLiteral? (text : String) : Option Binary64 :=
  match text.toList with
  | '-' :: rest => (Literal.unsigned rest).map (ofMagnitude true)
  | '+' :: rest => (Literal.unsigned rest).map (ofMagnitude false)
  | cs => (Literal.unsigned cs).map (ofMagnitude false)

end Binary64

end CodeContext
