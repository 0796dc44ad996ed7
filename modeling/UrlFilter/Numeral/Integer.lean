import UrlFilter.Numeral.Digits
import UrlFilter.Text.Blank
import UrlFilter.Text.Quoted

/-!
# Integer numerals

An integer numeral is an optional sign and a digit run, perhaps with padding around
it. The number of digits is limited, leading zeros included. The same limit holds for
the numeral that describes an integer.
-/

namespace UrlFilter.Numeral

open UrlFilter.Text

/-- Why a text is not an integer numeral. -/
inductive IntegerError where
  /-- The numeral has more digits than the limit allows. -/
  | tooManyDigits (count : Nat)
  /-- The text has another form. -/
  | malformed (text : String)
deriving DecidableEq, Repr

/-- Why an integer cannot be described. -/
inductive DescribeError where
  /-- Its numeral has more digits than the limit allows. -/
  | tooManyDigits
deriving DecidableEq, Repr

namespace Integer

/-- The most digits of a numeral. -/
def digitLimit : Nat := 4300

/-- The numeral of the integer has no more digits than the limit allows. -/
def IsShort (number : Int) : Prop :=
  (Nat.toDigits 10 number.natAbs).length ≤ digitLimit

instance (number : Int) : Decidable (IsShort number) :=
  inferInstanceAs (Decidable ((Nat.toDigits 10 number.natAbs).length ≤ digitLimit))

/-- The numeral of an integer. -/
def describe (number : Int) : Except DescribeError String :=
  if IsShort number then .ok (toString number) else .error .tooManyDigits

/-- The most characters of the quoted text that a message shows. -/
def shownLength : Nat := 200

/-- Reads an integer numeral. The digits are counted before the end of the text is
looked at, so a numeral that is too long fails for its length first. -/
def read (text : String) : Except IntegerError Int :=
  let (negative, unsigned) := splitSign (text.toList.dropWhile isPadding)
  let run := unsigned.takeWhile inRun
  let digits := digitValues run
  if !wellSpaced run then .error (.malformed text)
  else if digitLimit < digits.length then .error (.tooManyDigits digits.length)
  else if !(unsigned.dropWhile inRun).all isPadding then .error (.malformed text)
  else .ok (if negative then -(ofDigits digits : Int) else ofDigits digits)

end Integer

/-- The wording of the failure. -/
def IntegerError.message : IntegerError → String
  | .tooManyDigits count =>
    "Exceeds the limit (" ++ toString Integer.digitLimit ++
      " digits) for integer string conversion: value has " ++ toString count ++
      " digits; use sys.set_int_max_str_digits() to increase the limit"
  | .malformed text =>
    "invalid literal for int() with base 10: " ++
      String.ofList ((quoted text).toList.take Integer.shownLength)

/-- The wording of the failure. The number of digits is not found out. -/
def DescribeError.message : DescribeError → String
  | .tooManyDigits =>
    "Exceeds the limit (" ++ toString Integer.digitLimit ++
      " digits) for integer string conversion; use sys.set_int_max_str_digits() to " ++
      "increase the limit"

end UrlFilter.Numeral
