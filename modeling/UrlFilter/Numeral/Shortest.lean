import UrlFilter.Numeral.Binary64

/-!
# Shortest decimal text

A number is written with the fewest digits that read back as the number, and of
those with the nearest to it. Numbers near one are written positionally and all
others with an exponent.
-/

namespace UrlFilter.Numeral.Binary64

/-- The decimal on the grid of a power of ten that reads back as the positive number
and is nearest to it; an exact tie goes to the even coefficient. Only the two
neighbours of the number on the grid can be nearest. -/
def onGrid? (significand : Nat) (exponent grid : Int) : Option Nat :=
  let (numerator, denominator) := scaledDown 2 (-exponent) significand 1
  let (scaled, unit) := scaledDown 10 grid numerator denominator
  let lower := scaled / unit
  let fits (coefficient : Nat) : Bool :=
    ofDecimal false coefficient grid = .finite false significand exponent
  let twice := 2 * (scaled % unit)
  let lowerNearer := twice < unit || (twice == unit && lower % 2 == 0)
  match fits lower, fits (lower + 1) with
  | true, true => some (if lowerNearer then lower else lower + 1)
  | true, false => some lower
  | false, true => some (lower + 1)
  | false, false => none

/-- A power of ten above the positive number and at most a thousand times it. -/
def gridAbove (significand : Nat) (exponent : Int) : Int :=
  ((significand.log2 : Int) + exponent) * 30103 / 100000 + 2

/-- The coefficient and the exponent of the shortest decimal that reads back as the
positive number. Grids are tried from the coarsest, and seventeen digits always
suffice. -/
def shortest (significand : Nat) (exponent : Int) : Nat × Int :=
  let above := gridAbove significand exponent
  ((List.range 21).findSome? fun (step : Nat) =>
    let grid : Int := above - step
    (onGrid? significand exponent grid).map fun coefficient => (coefficient, grid)).getD (0, 0)

/-- The least decimal exponent that is written positionally. -/
def leastPositional : Int := -4

/-- The least decimal exponent above zero that is too great for positional notation. -/
def firstScientific : Int := 16

/-- Positional notation of `digits` times ten to the power of `grid`, with at least one
digit on both sides of the point. -/
def positional (digits : List Char) (grid : Int) : List Char :=
  if 0 ≤ grid then digits ++ List.replicate grid.toNat '0' ++ ['.', '0']
  else
    let places := (-grid).toNat
    let whole := digits.length - places
    if 0 < whole then digits.take whole ++ '.' :: digits.drop whole
    else '0' :: '.' :: List.replicate (places - digits.length) '0' ++ digits

/-- Notation with an exponent of at least two digits after one digit before the
point; without further digits there is no point. -/
def scientific (digits : List Char) (exponent : Int) : List Char :=
  let magnitude := Nat.toDigits 10 exponent.natAbs
  let coefficient :=
    match digits with
    | first :: second :: rest => first :: '.' :: second :: rest
    | few => few
  coefficient ++ 'e' :: (if exponent < 0 then '-' else '+') ::
    List.replicate (2 - magnitude.length) '0' ++ magnitude

/-- The text of a positive number. -/
def magnitudeText (significand : Nat) (exponent : Int) : List Char :=
  let (coefficient, grid) := shortest significand exponent
  let digits := Nat.toDigits 10 coefficient
  let decimalExponent := grid + digits.length - 1
  if leastPositional ≤ decimalExponent ∧ decimalExponent < firstScientific then
    positional digits grid
  else scientific digits decimalExponent

/-- The text of a number. -/
def text : Binary64 → String
  | .finite negative significand exponent =>
    let magnitude := if significand = 0 then ['0', '.', '0'] else magnitudeText significand exponent
    String.ofList (if negative then '-' :: magnitude else magnitude)
  | .infinite negative => if negative then "-inf" else "inf"
  | .nan => "nan"

end UrlFilter.Numeral.Binary64
