import UrlFilter.Failure

/-!
# Literals

A literal is one token that stands for a value. How it is written is kept apart from
the value, since a word, a phrase and a string may have the same text.
-/

namespace UrlFilter

open UrlFilter.Numeral UrlFilter.Text

/-- A literal as it is written. -/
inductive Literal where
  | integer (number : Int)
  | decimal (number : Binary64)
  | boolean (truth : Bool)
  | null
  | regex (literal : Regex)
  | quoted (content : String)
  | phrase (content : String)
  | word (content : String)
deriving DecidableEq, Repr

namespace Literal

/-- The value that a literal stands for. -/
def value : Literal → Value
  | .integer number => .int number
  | .decimal number => .float number
  | .boolean truth => .bool truth
  | .null => .null
  | .regex literal => .regex literal
  | .quoted content => .text content
  | .phrase content => .text content
  | .word content => .text content

/-- Reads a number. One with a point is a decimal numeral, any other an integer. -/
def readNumber (text : String) : Except ParseFailure Literal :=
  if text.toList.contains '.' then
    match Decimal.read text with
    | .ok number => .ok (.decimal number)
    | .error error => .error (.decimal error)
  else
    match Integer.read text with
    | .ok number => .ok (.integer number)
    | .error error => .error (.integer error)

/-- Reads a regular expression. -/
def readRegex (text : String) : Except ParseFailure Literal :=
  match Regex.ofSource text with
  | .ok literal => .ok (.regex literal)
  | .error error => .error (.flag error)

/-- The text without its first and its last character. -/
def inside (text : String) : String :=
  String.ofList (text.toList.dropLast.drop 1)

/-- The literal that a token writes. -/
def ofToken (token : Token) : Except ParseFailure Literal :=
  match token.kind with
  | .number => readNumber token.text
  | .boolean => .ok (.boolean (token.text = "true"))
  | .null => .ok .null
  | .regex => readRegex token.text
  | .quoted => .ok (.quoted (inside token.text))
  | .phrase => .ok (.phrase (trimEnd token.text))
  | .word => .ok (.word token.text)
  | _ => .error (.grammar (.unexpected .notLiteral token))

/-- How a literal is written. -/
def source : Literal → String
  | .integer number => toString number
  | .decimal number => number.text
  | .boolean truth => if truth then "true" else "false"
  | .null => "null"
  | .regex literal => literal.source
  | .quoted content => "'" ++ content ++ "'"
  | .phrase content => content
  | .word content => content

end Literal

end UrlFilter
