import UrlFilter.Numeral.Binary64
import UrlFilter.Numeral.Digits
import UrlFilter.Text.Blank
import UrlFilter.Text.Quoted

/-!
# Decimal numerals

A decimal numeral is an optional sign, digits with an optional point, and an optional
exponent, or the name of an infinity or of no number. It denotes the nearest
double-precision number.
-/

namespace UrlFilter.Numeral

open UrlFilter.Text

/-- A text that is not a decimal numeral. -/
structure DecimalError where
  text : String
deriving DecidableEq, Repr

/-- The wording of the failure. -/
def DecimalError.message (error : DecimalError) : String :=
  "could not convert string to float: " ++ quoted error.text

namespace Decimal

/-- A digit run that may be missing. -/
def optionalRun (run : List Char) : Bool :=
  run.isEmpty || wellSpaced run

/-- The exponent that follows the coefficient, and what follows the exponent. Without
a digit there is no exponent. -/
def splitExponent : List Char → Int × List Char
  | [] => (0, [])
  | mark :: rest =>
    let (negative, unsigned) := splitSign rest
    let run := unsigned.takeWhile inRun
    if (mark == 'e' || mark == 'E') && wellSpaced run then
      let magnitude : Int := ofDigits (digitValues run)
      (if negative then -magnitude else magnitude, unsigned.dropWhile inRun)
    else (0, mark :: rest)

/-- The digits after the point, and what follows them. -/
def splitFraction : List Char → List Char × List Char
  | '.' :: rest => (rest.takeWhile inRun, rest.dropWhile inRun)
  | rest => ([], rest)

/-- Reads an unsigned numeral that is written with digits. -/
def readDigits? (negative : Bool) (unsigned : List Char) : Option Binary64 :=
  let whole := unsigned.takeWhile inRun
  let (fraction, rest) := splitFraction (unsigned.dropWhile inRun)
  let (exponent, rest) := splitExponent rest
  let digits := digitValues whole ++ digitValues fraction
  if optionalRun whole && optionalRun fraction && rest.isEmpty && !digits.isEmpty then
    some (.ofDecimal negative (ofDigits digits) (exponent - (digitValues fraction).length))
  else none

/-- Reads a decimal numeral. -/
def read (text : String) : Except DecimalError Binary64 :=
  let trimmed := dropWhileEnd isPadding (text.toList.dropWhile isPadding)
  let (negative, unsigned) := splitSign trimmed
  let name := String.ofList (unsigned.map Char.toLower)
  if name = "inf" ∨ name = "infinity" then .ok (.infinite negative)
  else if name = "nan" then .ok .nan
  else match readDigits? negative unsigned with
    | some number => .ok number
    | none => .error ⟨text⟩

end Decimal

end UrlFilter.Numeral
