import UrlFilter.Value

/-!
# Error reports

A report is what a caller is shown of a failure: its class, a message and details in
order. The classes form a tree, so that a caller can watch for a whole branch.

The text of a report is worked out when the report is made. So there is no report with
a detail that cannot be described.
-/

namespace UrlFilter

open UrlFilter.Numeral UrlFilter.Text

/-- The class of a reported failure. -/
inductive ErrorClass where
  | base
  | parse
  | lexical
  | grammar
  | control
  | invalidControl
  | queryTooLong
deriving DecidableEq, Repr

namespace ErrorClass

/-- The name that reports show. -/
def name : ErrorClass → String
  | .base => "UrlqlError"
  | .parse => "ParseError"
  | .lexical => "LexicalError"
  | .grammar => "QuerySyntaxError"
  | .control => "ControlError"
  | .invalidControl => "InvalidControlError"
  | .queryTooLong => "QueryTooLongError"

/-- Every class. -/
def all : List ErrorClass :=
  [.base, .parse, .lexical, .grammar, .control, .invalidControl, .queryTooLong]

/-- The class with a name. -/
def ofName? (name : String) : Option ErrorClass :=
  all.find? fun errorClass => errorClass.name = name

/-- The wider classes that a class belongs to, nearest first. -/
def ancestors : ErrorClass → List ErrorClass
  | .base => []
  | .parse => [.base]
  | .lexical => [.parse, .base]
  | .grammar => [.parse, .base]
  | .control => [.base]
  | .invalidControl => [.control, .base]
  | .queryTooLong => [.base]

/-- Failures of the class point at a place in the text. -/
def isLocated (errorClass : ErrorClass) : Bool :=
  (errorClass :: errorClass.ancestors).contains .parse

end ErrorClass

/-- What a caller is shown of a failure. -/
structure Report where
  errorClass : ErrorClass
  message : String
  details : Table Value
deriving DecidableEq

namespace Report

/-- A detail as the text of a report shows it: its name and its value. -/
def describeDetail (detail : String × Value) : Except DescribeError String :=
  return detail.1 ++ "=" ++ (← detail.2.describe)

/-- The details as a list of names and values. -/
def detailText (report : Report) : Except DescribeError String :=
  return joined ", " (← report.details.mapM describeDetail)

/-- The report on one line: the message and, in brackets, the details. -/
def text (report : Report) : Except DescribeError String :=
  if report.details.isEmpty then return report.message
  else if report.message.isEmpty then report.detailText
  else return report.message ++ " (" ++ (← report.detailText) ++ ")"

/-- The report as descriptions show it. -/
def describe (report : Report) : Except DescribeError String :=
  return report.errorClass.name ++ "(message=" ++ quoted report.message ++ ", details=" ++
    (← (Value.map report.details).describe) ++ ")"

/-- Makes a report, together with its text. -/
def make (errorClass : ErrorClass) (message : String) (details : Table Value) :
    Except DescribeError Report := do
  let report : Report := ⟨errorClass, message, details⟩
  discard report.text
  return report

/-- The details that point at an offset and the text that stands there, and further ones. At the
end of the input no text stands. -/
def placeDetails (offset : Int) (token : Option String) (details : Table Value) : Table Value :=
  Table.ofList (("offset", .int offset) :: ("token", token.elim .null .text) :: details)

end Report

end UrlFilter
