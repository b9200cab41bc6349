/-!
# Binary floating-point numbers

A number of the IEEE 754 binary64 format is its sixty-four bits, and all that is computed with it is
exact arithmetic on natural numbers: a finite number is a significand times a power of two, and a
quotient of natural numbers is rounded to the nearest format number, a tie going to the even one.
-/

namespace CodeContext

/-- A binary64 number, given by its bits. -/
structure Binary64 where
  bits : UInt64
  deriving DecidableEq

namespace Binary64

/-- The bits below the sign, which order the numbers of one sign by size. -/
def magnitude (x : Binary64) : Nat :=
  x.bits.toNat % Nat.pow 2 63

def negative (x : Binary64) : Bool :=
  Nat.pow 2 63 ≤ x.bits.toNat

/-- The magnitude of the infinities. A larger one is not a number. -/
def infinite : Nat :=
  2047 * Nat.pow 2 52

def ofMagnitude (negative : Bool) (magnitude : Nat) : Binary64 :=
  ⟨UInt64.ofNat ((if negative then Nat.pow 2 63 else 0) + magnitude)⟩

def isNaN (x : Binary64) : Bool :=
  infinite < x.magnitude

def isInfinite (x : Binary64) : Bool :=
  x.magnitude == infinite

def isFinite (x : Binary64) : Bool :=
  x.magnitude < infinite

def neg (x : Binary64) : Binary64 :=
  ofMagnitude (!x.negative) x.magnitude

/-- The integral significand of a finite number. -/
def significand (x : Binary64) : Nat :=
  if x.magnitude < Nat.pow 2 52 then x.magnitude else Nat.pow 2 52 + x.magnitude % Nat.pow 2 52

/-- The exponent of two that goes with the significand, raised by 1074. -/
def scale (x : Binary64) : Nat :=
  x.magnitude / Nat.pow 2 52 - 1

/-- The absolute value of a finite number as a numerator and a denominator. -/
def ratio (x : Binary64) : Nat × Nat :=
  if x.scale < 1074 then (x.significand, Nat.pow 2 (1074 - x.scale))
  else (x.significand * Nat.pow 2 (x.scale - 1074), 1)

/-- The quotient as a natural number, rounded to the nearest and from a tie to the even one. -/
def roundHalfEven (num den : Nat) : Nat :=
  let q := num / den
  let r := num % den
  if den < 2 * r || (2 * r == den && q % 2 == 1) then q + 1 else q

/-- The exponent of the largest power of two that is at most the quotient, raised by the digits of
the denominator so that it is a natural number. -/
def quotientLog (num den : Nat) : Int :=
  let guess : Int := (num.log2 : Int) - den.log2
  let below := if 0 ≤ guess then num < den * Nat.pow 2 guess.toNat else num * Nat.pow 2 (-guess).toNat < den
  if below then guess - 1 else guess

/-- The magnitude of the number nearest to a quotient, the infinite one if it is too large. -/
def roundQuotient (num den : Nat) : Nat :=
  if num = 0 then 0
  else
    let s := max (quotientLog num den - 52) (-1074)
    let m := if s < 0 then roundHalfEven (num * Nat.pow 2 (-s).toNat) den
      else roundHalfEven num (den * Nat.pow 2 s.toNat)
    min infinite ((s + 1074).toNat * Nat.pow 2 52 + m)

/-- The number nearest to a quotient, with a sign. -/
def ofQuotient (negative : Bool) (num den : Nat) : Binary64 :=
  ofMagnitude negative (roundQuotient num den)

def ofNat (n : Nat) : Binary64 :=
  ofQuotient false n 1

def ofInt (n : Int) : Binary64 :=
  ofQuotient (n < 0) n.natAbs 1

/-- The rounded product of the absolute values of two finite numbers. -/
def mulAbs (x y : Binary64) : Binary64 :=
  ofQuotient false (x.ratio.1 * y.ratio.1) (x.ratio.2 * y.ratio.2)

/-- The rounded quotient of the absolute values of two finite numbers, the second not zero. -/
def divAbs (x y : Binary64) : Binary64 :=
  ofQuotient false (x.ratio.1 * y.ratio.2) (x.ratio.2 * y.ratio.1)

def negativeInfinity : Binary64 :=
  ofMagnitude true infinite

/-- The place of a number in the total order of all bit patterns: the negative ones first, from the largest
magnitude down, and negative zero right before zero. -/
def totalPlace (x : Binary64) : Int :=
  if x.negative then -x.magnitude - 1 else x.magnitude

/-- What stands for a number in sorting: zero for both zeros, and negative infinity for what is not a number. -/
def sortKey (x : Binary64) : Binary64 :=
  if x.isNaN then negativeInfinity else if x.magnitude = 0 then ofMagnitude false 0 else x

end Binary64

end CodeContext
