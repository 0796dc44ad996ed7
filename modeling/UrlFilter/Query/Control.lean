import UrlFilter.Insights
import UrlFilter.Journal
import UrlFilter.Numeral.Integer
import UrlFilter.Report

/-!
# Controls

Controls select fields, order the results and cut out a part of them. A control that
is not known is passed on with its text.
-/

namespace UrlFilter

open UrlFilter.Numeral UrlFilter.Text

/-- What is set for one control key. -/
inductive Control where
  /-- A number for each field. -/
  | flags (entries : Table Int)
  | count (number : Int)
  | present
  | text (content : String)
deriving DecidableEq, Repr

namespace Control

/-- The control as a value. -/
def toValue : Control → Value
  | .flags entries => .map (entries.map fun (field, flag) => (field, .int flag))
  | .count number => .int number
  | .present => .bool true
  | .text content => .text content

end Control

/-- Why a control cannot be applied. -/
inductive ControlFailure where
  /-- The text of a counting control is not an integer. -/
  | notAnInteger (key value : String)
  /-- The text that was passed on for the key cannot take fields. -/
  | notFlags (key : String)
deriving DecidableEq, Repr

namespace ControlFailure

/-- The report of a counting control whose text is not an integer. -/
def integerReport (key value : String) : Except DescribeError Report :=
  Report.make .invalidControl "Expected an integer value"
    [("key", .text key), ("value", .text value)]

/-- The wording of text that cannot take fields. -/
def notFlagsMessage : String :=
  "'str' object has no attribute 'update'"

/-- The report of a failure, if failures of its form are reported. -/
def report? : ControlFailure → Option (Except DescribeError Report)
  | .notAnInteger key value => some (integerReport key value)
  | .notFlags _ => none

end ControlFailure

/-- What a query leaves behind besides its result. -/
structure Trace where
  insights : Insights
  log : List LogRecord
deriving DecidableEq, Repr

namespace Trace

/-- Nothing has happened. -/
def empty : Trace :=
  ⟨Insights.empty, []⟩

/-- The trace after one more record. -/
def note (trace : Trace) (level : Level) (component message : String) : Trace :=
  { trace with log := trace.log ++ [⟨level, loggerName (some component), message⟩] }

/-- The trace after tags are recorded for fields. -/
def recordAll (trace : Trace) (marks : List Mark) : Trace :=
  { trace with insights := trace.insights.recordAll marks }

end Trace

/-- A computation over controls. -/
abbrev Controller := EStateM ControlFailure Trace

namespace Control

/-- The key of selected fields. -/
def selectKey : String := "$select"

/-- The key under which ordering fields are written. -/
def orderKey : String := "$order"

/-- The key under which ordering fields are kept. -/
def sortKey : String := "$sort"

/-- The key of the greatest number of results. -/
def limitKey : String := "$limit"

/-- The other way to write the greatest number of results. -/
def topKey : String := "$top"

/-- The key of the number of results that are left out. -/
def skipKey : String := "$skip"

/-- The key of the request to count. -/
def countKey : String := "$count"

/-- The component in whose name records are made. -/
def component : String := "query"

/-- One entry of a field list: a minus sign in front of the field gives it the second
number, and its absence the first. -/
def flagOf (plain negated : Int) (entry : List Char) : String × Int :=
  match entry with
  | '-' :: field => (String.ofList field, negated)
  | field => (String.ofList field, plain)

/-- The numbers of the fields in a list; empty entries are skipped. -/
def fieldFlags (plain negated : Int) (value : String) : Table Int :=
  Table.ofList ((nonemptyParts ',' value.toList).map (flagOf plain negated))

/-- The controls after fields are added under a key. -/
def addFlags (controls : Table Control) (key : String) (flags : Table Int) :
    Except ControlFailure (Table Control) :=
  match controls.get? key with
  | none => .ok (controls.put key (.flags flags))
  | some (.flags earlier) => .ok (controls.put key (.flags (earlier.update flags)))
  | some _ => .error (.notFlags key)

/-- Adds fields under a key and records a tag for each of them. -/
def applyFlags (controls : Table Control) (key tag : String) (flags : Table Int) :
    Controller (Table Control) := do
  match addFlags controls key flags with
  | .error failure => throw failure
  | .ok updated =>
    modify fun trace => trace.recordAll (flags.keys.map fun field => (field, tag))
    return updated

/-- Writes a number under a key. -/
def applyCount (controls : Table Control) (key written value : String) :
    Controller (Table Control) :=
  match Integer.read value with
  | .ok number => return controls.put key (.count number)
  | .error _ => throw (.notAnInteger written value)

/-- Applies one control segment. -/
def apply (controls : Table Control) (segment : String) : Controller (Table Control) := do
  let (keyChars, valueChars) := partition '=' segment.toList
  let key := String.ofList keyChars
  let value := String.ofList valueChars
  if key = selectKey then applyFlags controls selectKey selectKey (fieldFlags 1 0 value)
  else if key = orderKey then applyFlags controls sortKey orderKey (fieldFlags 1 (-1) value)
  else if key = limitKey ∨ key = topKey then applyCount controls limitKey key value
  else if key = skipKey then applyCount controls skipKey key value
  else if key = countKey then return controls.put countKey .present
  else
    modify fun trace => trace.note .debug component ("Passing through control " ++ key)
    return controls.put key (.text value)

/-- Applies control segments, in order. -/
def applyAll (segments : List String) : Controller (Table Control) :=
  segments.foldlM apply []

end Control

end UrlFilter
