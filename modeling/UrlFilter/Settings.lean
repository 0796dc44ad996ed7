import UrlFilter.Numeral.Digits
import UrlFilter.Table
import UrlFilter.Text.Blank

/-!
# Settings

The limits on queries and the level of messages, with their defaults, and how they are
read from environment variables. The case of a variable's name does not matter.
-/

namespace UrlFilter

open UrlFilter.Numeral UrlFilter.Text

/-- The settings of the program. -/
structure Settings where
  /-- The name of the level at which general messages are recorded. -/
  logLevel : String := "INFO"
  /-- The greatest number of characters of a query, if there is one. -/
  maxQueryLength : Option Int := none
  /-- The greatest number of groups that may be open at once. -/
  maxNestingDepth : Int := 100
deriving DecidableEq, Repr

/-- Why a text is not an integer setting. -/
inductive SettingProblem where
  | malformed
  | tooLong
deriving DecidableEq, Repr

namespace SettingProblem

/-- The name of the problem. -/
def name : SettingProblem → String
  | .malformed => "int_parsing"
  | .tooLong => "int_parsing_size"

/-- The wording of the problem. -/
def message : SettingProblem → String
  | .malformed => "Input should be a valid integer, unable to parse string as an integer"
  | .tooLong => "Unable to parse input string as an integer, exceeded maximum size"

end SettingProblem

namespace Settings

/-- The most characters of an integer in plain form, its sign included. -/
def lengthLimit : Nat := 4300

/-- A digit other than zero. -/
def isLeadingDigit (c : Char) : Bool :=
  c.isDigit && c != '0'

/-- Reads an integer in plain form: perhaps a minus sign, and either a single zero or
digits that do not start with one. Digits beyond the limit are an error of their own,
whatever follows them. -/
def readPlain (text : List Char) : Except SettingProblem Int :=
  let (negative, unsigned) :=
    match text with
    | '-' :: rest => (true, rest)
    | rest => (false, rest)
  let run := unsigned.takeWhile Char.isDigit
  if unsigned = ['0'] then .ok 0
  else if !run.head?.any isLeadingDigit then .error .malformed
  else if lengthLimit < run.length + (if negative then 1 else 0) then .error .tooLong
  else if run.length < unsigned.length then .error .malformed
  else
    let magnitude : Int := ofDigits (digitValues run)
    .ok (if negative then -magnitude else magnitude)

/-- Drops leading zeros and the underscores among them, but keeps the last of these
characters where no digit follows. A minus sign may follow them too. -/
def dropLeadingZeros? (text : List Char) : Option (List Char) :=
  match text with
  | '0' :: rest =>
    let among (c : Char) : Bool := c == '0' || c == '_'
    let last := ('0' :: rest.takeWhile among).getLast (by simp)
    match rest.dropWhile among with
    | [] => some [last]
    | c :: others =>
      if c = '.' then some (last :: c :: others)
      else if isLeadingDigit c || c == '-' then some (c :: others)
      else none
  | _ => if text.head?.any isLeadingDigit then some text else none

/-- Drops a point with nothing but zeros, and at least one, after it. -/
def dropZeroFraction (text : List Char) : List Char :=
  match text.dropWhile (· != '.') with
  | '.' :: zeros =>
    if !zeros.isEmpty && zeros.all (· == '0') then text.takeWhile (· != '.') else text
  | _ => text

/-- Drops underscores if each stands alone between two other characters. -/
def dropUnderscores (text : List Char) : List Char :=
  if wellSpaced text then text.filter (· != '_') else text

/-- The plain form of an unsigned integer, if the text starts as one does. -/
def plainUnsigned? (text : List Char) : Option (List Char) :=
  (dropLeadingZeros? text).map fun digits => dropUnderscores (dropZeroFraction digits)

/-- The plain form of an integer: padding, a plus sign, leading zeros, a fraction of
zeros and single underscores are dropped. -/
def plainForm? (text : List Char) : Option (List Char) :=
  match dropWhileEnd isPadding (text.dropWhile isPadding) with
  | '+' :: rest => plainUnsigned? rest
  | '-' :: rest => (plainUnsigned? rest).map ('-' :: ·)
  | rest => plainUnsigned? rest

/-- Reads an integer setting. Text that is not in plain form is brought into it first, and
then its length is no problem of its own. -/
def readInteger (text : String) : Except SettingProblem Int :=
  match readPlain text.toList with
  | .error .malformed =>
    match plainForm? text.toList with
    | none => .error .malformed
    | some plain => (readPlain plain).mapError fun _ => .malformed
  | result => result

/-- The variable of the message level. -/
def logLevelName : String := "LOG_LEVEL"

/-- The variable of the length limit. -/
def maxQueryLengthName : String := "MAX_QUERY_LENGTH"

/-- The variable of the nesting limit. -/
def maxNestingDepthName : String := "MAX_NESTING_DEPTH"

/-- The value of the last variable with a name in any case. -/
def lastValue? (environment : List (String × String)) (name : String) : Option String :=
  (environment.reverse.find? fun entry =>
    String.ofList (entry.1.toList.map Char.toUpper) = name).map (·.2)

/-- Reads an integer setting from its variable, if the variable is there. -/
def readVariable (environment : List (String × String)) (name : String) :
    Except (String × SettingProblem) (Option Int) :=
  match lastValue? environment name with
  | none => .ok none
  | some text =>
    match readInteger text with
    | .ok number => .ok (some number)
    | .error problem => .error (name, problem)

/-- Reads the settings. All problems are reported together. -/
def ofEnvironment (environment : List (String × String)) :
    Except (List (String × SettingProblem)) Settings :=
  match readVariable environment maxQueryLengthName,
    readVariable environment maxNestingDepthName with
  | .ok length, .ok depth =>
    .ok {
      logLevel := (lastValue? environment logLevelName).getD ({} : Settings).logLevel
      maxQueryLength := length
      maxNestingDepth := depth.getD ({} : Settings).maxNestingDepth }
  | .error problem, .ok _ => .error [problem]
  | .ok _, .error problem => .error [problem]
  | .error first, .error second => .error [first, second]

end Settings

end UrlFilter
