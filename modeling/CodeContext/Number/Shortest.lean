import CodeContext.Number.Binary64

/-!
# The shortest decimal of a binary number

The decimal with the fewest digits that reads back as the given binary number; of several with as
few digits, the nearest. Written positionally when its exponent of ten is between −5 and 15, with an
exponent otherwise, and always with a point or an exponent.
-/

namespace CodeContext

/-- The decimal `digits * 10 ^ exponent`. -/
structure Decimal where
  digits : Nat
  exponent : Int

namespace Decimal

/-- The magnitude of the binary number nearest to the decimal. -/
def nearest (d : Decimal) : Nat :=
  if 0 ≤ d.exponent then Binary64.roundQuotient (d.digits * Nat.pow 10 d.exponent.toNat) 1
  else Binary64.roundQuotient d.digits (Nat.pow 10 (-d.exponent).toNat)

/-- The same decimal with no zero at its end. -/
def stripZeros : Nat → Decimal → Decimal
  | 0, d => d
  | fuel + 1, d =>
    if d.digits != 0 && d.digits % 10 == 0 then stripZeros fuel ⟨d.digits / 10, d.exponent + 1⟩ else d

/-- The exponent of the largest power of ten that is at most the positive quotient. The search goes
down from an exponent that is surely too large. -/
def tenLog (num den : Nat) : Nat → Int → Int
  | 0, e => e
  | fuel + 1, e =>
    let fits := if 0 ≤ e then den * Nat.pow 10 e.toNat ≤ num else den ≤ num * Nat.pow 10 (-e).toNat
    if fits then e else tenLog num den fuel (e - 1)

/-- The two decimals around a quotient with the given exponent, the nearer one first. -/
def around (num den : Nat) (exponent : Int) : List Decimal :=
  let n := if exponent < 0 then num * Nat.pow 10 (-exponent).toNat else num
  let d := if exponent < 0 then den else den * Nat.pow 10 exponent.toNat
  let low : Decimal := ⟨n / d, exponent⟩
  let high : Decimal := ⟨n / d + 1, exponent⟩
  if 2 * (n % d) < d || (2 * (n % d) == d && n / d % 2 == 0) then [low, high] else [high, low]

/-- The first decimal that reads back, with `17 - fuel` digits or more. -/
def search (magnitude num den : Nat) (log : Int) : Nat → Decimal
  | 0 => ⟨0, 0⟩
  | fuel + 1 =>
    match (around num den (log - 16 + fuel)).find? fun d => d.nearest == magnitude with
    | some d => d
    | none => search magnitude num den log fuel

/-- The shortest decimal of the absolute value of a finite number. -/
def shortest (x : Binary64) : Decimal :=
  if x.magnitude = 0 then ⟨0, 0⟩
  else
    let (num, den) := x.ratio
    let above : Int := ((num.log2 : Int) + 1 - den.log2) * 30103 / 100000 + 1
    let log := tenLog num den 8 above
    stripZeros 20 (search x.magnitude num den log 17)

/-- The decimal's text. -/
def render (d : Decimal) : List Char :=
  let ds := (toString d.digits).toList
  let log := d.exponent + ds.length - 1
  if d.digits = 0 then "0.0".toList
  else if log < -5 || 16 ≤ log then
    let mantissa := match ds with
      | [] => []
      | [c] => [c]
      | c :: more => c :: '.' :: more
    mantissa ++ 'e' :: (if log < 0 then '-' else '+') :: (toString log.natAbs).toList
  else if log < 0 then '0' :: '.' :: List.replicate (-log - 1).toNat '0' ++ ds
  else
    let whole := (log + 1).toNat
    if ds.length ≤ whole then ds ++ List.replicate (whole - ds.length) '0' ++ ['.', '0']
    else ds.take whole ++ '.' :: ds.drop whole

end Decimal

namespace Binary64

/-- The shortest text of a number that reads back as the number. -/
def shortestText (x : Binary64) : List Char :=
  (if x.negative then ['-'] else []) ++ (Decimal.shortest x).render

end Binary64

end CodeContext
