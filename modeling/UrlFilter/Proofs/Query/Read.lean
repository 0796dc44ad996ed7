import UrlFilter.Proofs.Filter
import UrlFilter.Proofs.Query.Control
import UrlFilter.Query

/-!
# Reading a query string

A query string is read in three stages: its length is checked, its controls are applied, and
its filter segments are read as one text. The last two share only the insights, and neither
depends on what they hold.
-/

namespace UrlFilter.Query

open Text

/-- The query string is longer than the limit. -/
def Exceeds (limit : Option Int) (raw : String) : Prop :=
  ∃ bound : Int, limit = some bound ∧ bound < raw.length

/-- Without a limit no query string is too long. -/
theorem not_exceeds_none (raw : String) : ¬ Exceeds none raw := by
  rintro ⟨_, limited, _⟩
  cases limited

/-- The filter segments together write the filter, if there are any. -/
inductive FilterOf (depthLimit : Int) : List String → Option Filter → Prop where
  | absent : FilterOf depthLimit [] none
  | written {segments : List String} {filter : Filter} {tokens : List Token}
      (nonempty : segments ≠ []) (scanned : tokenize (joined "&" segments) = .ok tokens)
      (counted : filter.tokenCount = tokens.length) (derived : filter.expression.Derives tokens)
      (nested : filter.expression.NestedWithin depthLimit) :
      FilterOf depthLimit segments (some filter)

/-- The tags that a filter records. -/
def filterMarks : Option Filter → List Mark
  | none => []
  | some filter => filter.expression.marks

/-- What the journal is told of a filter, if there is one. -/
def filterNotes : Option Filter → List LogRecord
  | none => []
  | some filter => [⟨.debug, loggerName (some "Parser"), filterSummary filter⟩]

variable {settings : Settings} {raw : String} {depthLimit : Int} {segments : List String}
  {trace after : Trace} {filter : Option Filter} {query : Query} {failure : QueryFailure}

/-- Filter segments are read exactly as the filter that they write, whatever has been recorded
before. -/
theorem readFilter_eq_ok :
    readFilter depthLimit segments trace = .ok filter after ↔
      FilterOf depthLimit segments filter ∧
        after =
          ⟨trace.insights.recordAll (filterMarks filter), trace.log ++ filterNotes filter⟩ := by
  cases segments with
  | nil =>
    have unchanged : (⟨trace.insights.recordAll [], trace.log ++ []⟩ : Trace) = trace := by
      rw [List.append_nil]
      rfl
    constructor
    · intro success
      cases success
      exact ⟨.absent, unchanged.symm⟩
    · rintro ⟨isFilter, rfl⟩
      cases isFilter with
      | absent => exact congrArg (EStateM.Result.ok none) unchanged.symm
      | written nonempty => exact absurd rfl nonempty
  | cons segment others =>
    simp only [readFilter, List.isEmpty_cons, Bool.false_eq_true, if_false, EStateM.run]
    constructor
    · intro success
      split at success
      · next found insights parsed =>
        cases success
        obtain ⟨tokens, scanned, counted, derived, nested, rfl⟩ := parseFilter_eq_ok.mp parsed
        exact ⟨.written (List.cons_ne_nil _ _) scanned counted derived nested, rfl⟩
      · cases success
    · rintro ⟨isFilter, rfl⟩
      cases isFilter with
      | written _ scanned counted derived nested =>
        rw [parseFilter_eq_ok.mpr ⟨_, scanned, counted, derived, nested, rfl⟩]
        rfl

/-- A query string that is too long is not looked at. -/
theorem read_of_lt {limit : Int} (limited : settings.maxQueryLength = some limit)
    (long : limit < raw.length) :
    read settings raw trace = .error (.tooLong raw.length limit) trace := by
  have refused : checkLength settings.maxQueryLength raw trace =
      .error (.tooLong raw.length limit) trace := by
    rw [limited, checkLength, if_pos long]
    rfl
  simp only [read, bind, EStateM.bind, refused]

/-- The controls of a query string that is not too long are applied before its filter is
read. -/
theorem read_of_not_exceeds (fits : ¬ Exceeds settings.maxQueryLength raw) :
    read settings raw trace =
      match Control.applyAll (Segments.split raw).controls trace with
      | .error failure middle => .error (.control failure) middle
      | .ok controls middle =>
        match readFilter settings.maxNestingDepth (Segments.split raw).filters middle with
        | .error failure last => .error failure last
        | .ok filter last =>
          .ok ⟨filter, controls, last.insights⟩
            (last.note (Level.ofName settings.logLevel) Control.component
              (summary ⟨filter, controls, last.insights⟩)) := by
  have passed : checkLength settings.maxQueryLength raw trace = .ok () trace := by
    cases limited : settings.maxQueryLength with
    | none => rfl
    | some limit =>
      rw [checkLength, if_neg fun long => fits ⟨limit, limited, long⟩]
      rfl
  simp only [read, bind, EStateM.bind, passed, readControls, EStateM.run]
  cases Control.applyAll (Segments.split raw).controls trace with
  | error failure middle => rfl
  | ok controls middle =>
    simp only
    cases readFilter settings.maxNestingDepth (Segments.split raw).filters middle <;> rfl

/-- A query string is read as a query exactly if it is not too long, its controls can be
applied, and its filter segments write a filter. -/
theorem read_eq_ok :
    read settings raw trace = .ok query after ↔
      ¬ Exceeds settings.maxQueryLength raw ∧
      FilterOf settings.maxNestingDepth (Segments.split raw).filters query.filter ∧
      ∃ middle, Control.applyAll (Segments.split raw).controls trace = .ok query.controls middle ∧
        query.insights = middle.insights.recordAll (filterMarks query.filter) ∧
        after = Trace.note ⟨query.insights, middle.log ++ filterNotes query.filter⟩
          (Level.ofName settings.logLevel) Control.component query.summary := by
  constructor
  · intro success
    by_cases exceeds : Exceeds settings.maxQueryLength raw
    · obtain ⟨limit, limited, long⟩ := exceeds
      rw [read_of_lt limited long] at success
      cases success
    · rw [read_of_not_exceeds exceeds] at success
      cases applied : Control.applyAll (Segments.split raw).controls trace with
      | error failure middle =>
        rw [applied] at success
        cases success
      | ok controls middle =>
        simp only [applied] at success
        split at success
        · cases success
        · next filter last isRead =>
          obtain ⟨isFilter, rfl⟩ := readFilter_eq_ok.mp isRead
          cases success
          exact ⟨exceeds, isFilter, middle, rfl, rfl, rfl⟩
  · rintro ⟨fits, isFilter, middle, applied, isInsights, rfl⟩
    obtain ⟨filter, controls, insights⟩ := query
    simp only at isFilter applied isInsights
    subst isInsights
    rw [read_of_not_exceeds fits, applied]
    simp only [readFilter_eq_ok.mpr ⟨isFilter, rfl⟩]

/-- Segments write one filter at most. -/
theorem FilterOf.unique {first second : Option Filter}
    (isFirst : FilterOf depthLimit segments first)
    (isSecond : FilterOf depthLimit segments second) : first = second := by
  cases isFirst with
  | absent =>
    cases isSecond with
    | absent => rfl
    | written nonempty => exact absurd rfl nonempty
  | @written _ firstFilter _ nonempty scanned counted derived _ =>
    cases isSecond with
    | absent => exact absurd rfl nonempty
    | @written _ secondFilter _ _ scannedAgain countedAgain derivedAgain _ =>
      rw [scanned] at scannedAgain
      cases scannedAgain
      obtain ⟨firstExpression, firstCount⟩ := firstFilter
      obtain ⟨secondExpression, secondCount⟩ := secondFilter
      cases derived.unique derivedAgain
      cases counted.trans countedAgain.symm
      rfl

/-- A query string is read as a query exactly if it is not too long, there is a filter that it
writes, and its controls can be applied. -/
theorem exists_read_iff :
    (∃ query after, read settings raw trace = .ok query after) ↔
      ¬ Exceeds settings.maxQueryLength raw ∧
      (∃ filter, FilterOf settings.maxNestingDepth (Segments.split raw).filters filter) ∧
      ∃ controls middle,
        Control.applyAll (Segments.split raw).controls trace = .ok controls middle := by
  constructor
  · rintro ⟨query, after, success⟩
    obtain ⟨fits, isFilter, middle, applied, _⟩ := read_eq_ok.mp success
    exact ⟨fits, ⟨_, isFilter⟩, _, _, applied⟩
  · rintro ⟨fits, ⟨filter, isFilter⟩, controls, middle, applied⟩
    exact ⟨⟨filter, controls, middle.insights.recordAll (filterMarks filter)⟩, _,
      read_eq_ok.mpr ⟨fits, isFilter, middle, applied, rfl, rfl⟩⟩

end UrlFilter.Query
