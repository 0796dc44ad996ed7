/-!
# Double-precision numbers

The numbers of the binary64 format as exact values: a significand times a power of
two, an infinity, or no number. `Binary64.ofRatio` rounds to the nearest of them.
-/

namespace UrlFilter.Numeral

/-- A double-precision number. The finite number is `significand * 2 ^ exponent`, and
zero has a sign. -/
inductive Binary64 where
  | finite (negative : Bool) (significand : Nat) (exponent : Int)
  | infinite (negative : Bool)
  | nan
deriving DecidableEq, Repr

namespace Binary64

/-- The least exponent of a finite number. -/
def leastExponent : Int := -1074

/-- The greatest exponent of a finite number. -/
def greatestExponent : Int := 971

/-- The number of bits of a significand. -/
def precision : Nat := 53

/-- Zero with the given sign. -/
def zero (negative : Bool) : Binary64 :=
  .finite negative 0 leastExponent

/-- A quotient of natural numbers, rounded to the nearest integer; a half goes to the
even neighbour. -/
def roundQuotient (numerator denominator : Nat) : Nat :=
  let quotient := numerator / denominator
  let twice := 2 * (numerator % denominator)
  if denominator < twice ∨ (denominator = twice ∧ quotient % 2 = 1) then quotient + 1 else quotient

/-- A ratio divided by a power of the base, as a ratio again. -/
def scaledDown (base : Nat) (exponent : Int) (numerator denominator : Nat) : Nat × Nat :=
  if 0 ≤ exponent then (numerator, denominator * base.pow exponent.toNat)
  else (numerator * base.pow (-exponent).toNat, denominator)

/-- The exponent of the greatest power of two that is at most the positive ratio. -/
def binaryExponent (numerator denominator : Nat) : Int :=
  let estimate : Int := (numerator.log2 : Int) - denominator.log2
  let (scaled, unit) := scaledDown 2 estimate numerator denominator
  if unit ≤ scaled then estimate else estimate - 1

/-- The number nearest to a ratio; of two nearest, the one with the even significand.
A ratio that rounds past the greatest finite number is infinite. -/
def ofRatio (negative : Bool) (numerator denominator : Nat) : Binary64 :=
  if numerator = 0 then zero negative
  else
    let exponent := max (binaryExponent numerator denominator - (precision - 1)) leastExponent
    let (scaled, unit) := scaledDown 2 exponent numerator denominator
    let significand := roundQuotient scaled unit
    let (significand, exponent) :=
      if significand = Nat.pow 2 precision then (Nat.pow 2 (precision - 1), exponent + 1)
      else (significand, exponent)
    if greatestExponent < exponent then .infinite negative
    else .finite negative significand exponent

/-- The number nearest to `coefficient * 10 ^ exponent`. Exponents that settle the
result by themselves are taken out first, since their powers are never needed. -/
def ofDecimal (negative : Bool) (coefficient : Nat) (exponent : Int) : Binary64 :=
  if coefficient = 0 then zero negative
  else if 400 < exponent then .infinite negative
  else if 0 ≤ exponent then ofRatio negative (coefficient * Nat.pow 10 exponent.toNat) 1
  else if (coefficient.log2 : Int) + 1081 < 3 * -exponent then zero negative
  else ofRatio negative coefficient (Nat.pow 10 (-exponent).toNat)

/-- The exact value of a finite number. -/
def toRat? : Binary64 → Option Rat
  | .finite negative significand exponent =>
    let magnitude : Rat := (significand : Rat) * (2 : Rat) ^ exponent
    some (if negative then -magnitude else magnitude)
  | .infinite _ => none
  | .nan => none

end Binary64

end UrlFilter.Numeral
