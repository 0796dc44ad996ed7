import UrlFilter.Filter
import UrlFilter.Query.Control
import UrlFilter.Query.Segment
import UrlFilter.Settings

/-!
# Queries

A query string holds a filter and controls. Reading it yields both, and the insights
into the fields that they use.
-/

namespace UrlFilter

open UrlFilter.Numeral UrlFilter.Text

/-- A query string that has been read. -/
structure Query where
  filter : Option Filter
  controls : Table Control
  insights : Insights
deriving DecidableEq

/-- Why a query string cannot be read. -/
inductive QueryFailure where
  | tooLong (length : Nat) (limit : Int)
  | control (failure : ControlFailure)
  | filter (failure : ParseFailure)
deriving DecidableEq, Repr

namespace QueryFailure

/-- The report of a query string that is too long. -/
def lengthReport (length : Nat) (limit : Int) : Except DescribeError Report :=
  Report.make .queryTooLong "Query string too long"
    [("length", .int length), ("limit", .int limit)]

/-- The report of a failure, if failures of its form are reported. -/
def report? : QueryFailure → Option (Except DescribeError Report)
  | .tooLong length limit => some (lengthReport length limit)
  | .control failure => failure.report?
  | .filter failure => failure.report?

end QueryFailure

/-- A computation over a query. -/
abbrev Querying := EStateM QueryFailure Trace

namespace Query

/-- The filter tree, if there is a filter. -/
def node (query : Query) : Option Node :=
  query.filter.map Filter.node

/-- The filter tree as a map; without a filter the map is empty. -/
def filterValue (query : Query) : Value :=
  query.node.elim (.map []) Node.toValue

/-- The controls as a map. -/
def controlsValue (query : Query) : Value :=
  .map (query.controls.map fun (key, control) => (key, control.toValue))

/-- The whole query as one map of plain values. -/
def dump (query : Query) : Value :=
  Value.expandRegex (.map [("filter", query.filterValue), ("controls", query.controlsValue),
    ("insights", query.insights.toValue)])

/-- Fails if the query string is longer than the limit. -/
def checkLength (limit : Option Int) (raw : String) : Querying Unit :=
  match limit with
  | none => return ()
  | some limit => if limit < raw.length then throw (.tooLong raw.length limit) else return ()

/-- Applies the controls. -/
def readControls (segments : List String) : Querying (Table Control) := fun trace =>
  match (Control.applyAll segments).run trace with
  | .ok controls after => .ok controls after
  | .error failure after => .error (.control failure) after

/-- What the journal is told of a filter that has been read. -/
def filterSummary (filter : Filter) : String :=
  "Parsed " ++ toString filter.tokenCount ++ " tokens into " ++ filter.node.kindName ++ " node"

/-- Reads the filter segments as one filter text, if there are any. -/
def readFilter (depthLimit : Int) (segments : List String) : Querying (Option Filter) :=
  fun trace =>
    if segments.isEmpty then .ok none trace
    else match (parseFilter depthLimit (joined "&" segments)).run trace.insights with
      | .ok filter insights =>
        .ok (some filter)
          ({ trace with insights := insights }.note .debug "Parser" (filterSummary filter))
      | .error failure insights => .error (.filter failure) { trace with insights := insights }

/-- What the journal is told of a query. -/
def summary (query : Query) : String :=
  "Parsed query controls=" ++ toString query.controls.length ++
    " filter=" ++ query.node.elim "none" Node.kindName ++
    " fields=" ++ toString query.insights.size

/-- Reads a query string. -/
def read (settings : Settings) (raw : String) : Querying Query := do
  checkLength settings.maxQueryLength raw
  let segments := Segments.split raw
  let controls ← readControls segments.controls
  let filter ← readFilter settings.maxNestingDepth segments.filters
  let query : Query := ⟨filter, controls, (← get).insights⟩
  modify fun trace =>
    trace.note (Level.ofName settings.logLevel) Control.component query.summary
  return query

end Query

end UrlFilter
