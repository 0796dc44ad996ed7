import UrlFilter.Text.DecimalDigit
import UrlFilter.Text.Separated

/-!
# Signs and digit runs

The parts that integer and decimal numerals are made of. Digits may come from any
script, and a single underscore may stand between two of them.
-/

namespace UrlFilter.Numeral

open UrlFilter.Text

/-- An optional sign and what follows it; `true` stands for the minus sign. -/
def splitSign : List Char → Bool × List Char
  | '-' :: rest => (true, rest)
  | '+' :: rest => (false, rest)
  | rest => (false, rest)

/-- A character of a digit run. -/
def inRun (c : Char) : Bool :=
  isDecimalDigit c || c == '_'

/-- Every underscore of the run has a digit on both sides, and the run has a digit. -/
def wellSpaced (run : List Char) : Bool :=
  (parts '_' run).all fun group => !group.isEmpty

/-- The values of the digits in a run. -/
def digitValues (run : List Char) : List Nat :=
  run.filterMap digitValue?

/-- The number that digits denote in base ten. -/
def ofDigits (digits : List Nat) : Nat :=
  digits.foldl (fun number digit => 10 * number + digit) 0

end UrlFilter.Numeral
