import UrlFilter.Proofs.Expression.Source
import UrlFilter.Proofs.Query.Read

/-!
# Rearranged query strings

The parts of a query string may be rearranged as long as the filters keep their order and so
do the controls that write one key. Reading the two query strings then ends alike: a control
has no effect but on its own key and on the insights, and these only ever grow.
-/

namespace UrlFilter.Query

open Text

variable {first second : String} {settings : Settings} {trace : Trace}

/-- One query string is the other with its parts rearranged: the filters keep their order, and
the controls that write one key keep theirs. -/
structure Rearranged (first second : String) : Prop where
  parts : (parts '&' first.toList).Perm (parts '&' second.toList)
  filters : (Segments.split first).filters = (Segments.split second).filters
  controls : ∀ key, Control.writers key (Segments.split first).controls =
    Control.writers key (Segments.split second).controls

/-- Two queries have the same filter tree, the same controls, and the same tags for each
field. -/
structure Agrees (left right : Query) : Prop where
  node : left.node = right.node
  filterValue : left.filterValue = right.filterValue
  controls : left.controls.Perm right.controls
  fields : ∀ field, field ∈ left.insights.fields ↔ field ∈ right.insights.fields
  records : ∀ field tag, left.insights.Records field tag ↔ right.insights.Records field tag

namespace Rearranged

/-- Rearranging keeps the length. -/
theorem length_eq (rearranged : Rearranged first second) : first.length = second.length := by
  have firstLength := length_parts '&' first.toList
  have secondLength := length_parts '&' second.toList
  have sameParts := rearranged.parts.length_eq
  have sameCharacters := rearranged.parts.flatten.length_eq
  rw [← String.length_toList, ← String.length_toList]
  omega

/-- Rearranging keeps every control. -/
theorem mem_controls_iff (rearranged : Rearranged first second) {segment : String} :
    segment ∈ (Segments.split first).controls ↔ segment ∈ (Segments.split second).controls := by
  have isWriter : ∀ segments : List String,
      segment ∈ Control.writers (Control.target segment) segments ↔ segment ∈ segments := by
    intro segments
    simp [Control.writers]
  rw [← isWriter, rearranged.controls, isWriter]

/-- Controls record the same tags whatever their order. -/
theorem mem_marks_iff (rearranged : Rearranged first second) {mark : Mark} :
    mark ∈ (Segments.split first).controls.flatMap Control.marks ↔
      mark ∈ (Segments.split second).controls.flatMap Control.marks := by
  simp only [List.mem_flatMap, rearranged.mem_controls_iff]

/-- Rearranging keeps whether the query string is too long. -/
theorem exceeds_iff (rearranged : Rearranged first second) {limit : Option Int} :
    Exceeds limit first ↔ Exceeds limit second := by
  rw [Exceeds, Exceeds, rearranged.length_eq]

/-- The controls of rearranged query strings set the same. -/
theorem controls_perm (rearranged : Rearranged first second) {controls others : Table Control}
    {middle otherMiddle : Trace}
    (applied : Control.applyAll (Segments.split first).controls trace = .ok controls middle)
    (otherApplied :
      Control.applyAll (Segments.split second).controls trace = .ok others otherMiddle) :
    controls.Perm others := by
  have applies := Control.foldlM_apply_eq_ok.mp applied
  have otherApplies := Control.foldlM_apply_eq_ok.mp otherApplied
  refine Table.perm_of_get?_eq (applies.distinct Table.distinct_nil)
    (otherApplies.distinct Table.distinct_nil) ?_
  intro key
  have settled := applies.settle key
  have otherSettled := otherApplies.settle key
  rw [rearranged.controls key, otherSettled] at settled
  exact (Except.ok.inj settled).symm

/-- Queries that are read from rearranged query strings agree. -/
theorem agrees (rearranged : Rearranged first second) {left right : Query} {after last : Trace}
    (leftRead : read settings first trace = .ok left after)
    (rightRead : read settings second trace = .ok right last) : left.Agrees right := by
  obtain ⟨_, leftFilter, middle, leftApplied, leftInsights, _⟩ := read_eq_ok.mp leftRead
  obtain ⟨_, rightFilter, other, rightApplied, rightInsights, _⟩ := read_eq_ok.mp rightRead
  rw [rearranged.filters] at leftFilter
  have sameFilter : left.filter = right.filter := leftFilter.unique rightFilter
  have sameNode : left.node = right.node := by
    rw [node, node, sameFilter]
  -- The insights are those before with the tags of the controls and then of the filter.
  have leftMarks : left.insights = (trace.insights.recordAll
      ((Segments.split first).controls.flatMap Control.marks)).recordAll
        (filterMarks right.filter) := by
    rw [leftInsights, (Control.foldlM_apply_eq_ok.mp leftApplied).trace_eq,
      Control.insights_foldl_leave, sameFilter]
  have rightMarks : right.insights = (trace.insights.recordAll
      ((Segments.split second).controls.flatMap Control.marks)).recordAll
        (filterMarks right.filter) := by
    rw [rightInsights, (Control.foldlM_apply_eq_ok.mp rightApplied).trace_eq,
      Control.insights_foldl_leave]
  constructor
  · exact sameNode
  · rw [filterValue, filterValue, sameNode]
  · exact rearranged.controls_perm leftApplied rightApplied
  · intro field
    simp only [leftMarks, rightMarks, Insights.mem_fields_recordAll, List.mem_map,
      rearranged.mem_marks_iff]
  · intro field tag
    simp only [leftMarks, rightMarks, Insights.records_recordAll, rearranged.mem_marks_iff]

end Rearranged

/-- The order of independent parts does not matter: of two rearranged query strings both are
read as queries or neither is, and these queries agree. -/
theorem read_rearranged (rearranged : Rearranged first second) (settings : Settings)
    (trace : Trace) :
    ((∃ query after, read settings first trace = .ok query after) ↔
      ∃ query after, read settings second trace = .ok query after) ∧
    ∀ left after right last, read settings first trace = .ok left after →
      read settings second trace = .ok right last → left.Agrees right := by
  constructor
  · simp only [exists_read_iff, Control.exists_applyAll_iff, rearranged.exceeds_iff,
      rearranged.filters, rearranged.controls]
  · intro left after right last leftRead rightRead
    exact rearranged.agrees leftRead rightRead

/-- Controls change places with filters and with controls that write another key. -/
theorem read_rearranged_mixed :
    ∃ left after right last,
      read {} "$order=-b&a>1&$limit=5&b=c&$top=2" Trace.empty = .ok left after ∧
      read {} "a>1&$limit=5&$top=2&b=c&$order=-b" Trace.empty = .ok right last ∧
      left.Agrees right := by
  have split : Segments.split "$order=-b&a>1&$limit=5&b=c&$top=2" =
      ⟨["$order=-b", "$limit=5", "$top=2"], ["a>1", "b=c"]⟩ := by
    rfl
  have otherSplit : Segments.split "a>1&$limit=5&$top=2&b=c&$order=-b" =
      ⟨["$limit=5", "$top=2", "$order=-b"], ["a>1", "b=c"]⟩ := by
    rfl
  have rearranged : Rearranged "$order=-b&a>1&$limit=5&b=c&$top=2"
      "a>1&$limit=5&$top=2&b=c&$order=-b" := by
    refine ⟨by decide, by rw [split, otherSplit], ?_⟩
    intro key
    have order : Control.target "$order=-b" = "$sort" := by decide
    have limit : Control.target "$limit=5" = "$limit" := by decide
    have top : Control.target "$top=2" = "$limit" := by decide
    simp only [split, otherSplit, Control.writers, List.filter_cons, order, limit, top]
    by_cases isLimit : "$limit" = key
    · subst isLimit
      rfl
    · simp [isLimit]
  have writable : (Disjunction.single (.and (.clause (.comparison "a" .greater (.integer 1)))
      (.single (.clause (.comparison "b" .equal (.word "c")))))).isWritable = true := by
    rfl
  obtain ⟨tokens, scanned, derived⟩ := Disjunction.tokenize_source writable
  have isFilter : ∃ filter, FilterOf 100 ["a>1", "b=c"] filter :=
    ⟨some ⟨_, tokens.length⟩, .written (List.cons_ne_nil _ _) scanned rfl derived (.inl rfl)⟩
  have fits : ¬ Exceeds none "$order=-b&a>1&$limit=5&b=c&$top=2" := by
    rintro ⟨_, limited, _⟩
    cases limited
  have applied : Control.applyAll ["$order=-b", "$limit=5", "$top=2"] Trace.empty =
      .ok [("$sort", .flags [("b", -1)]), ("$limit", .count 2)] ⟨⟨[("b", ["$order"])]⟩, []⟩ := by
    rfl
  have isRead := @exists_read_iff {} "$order=-b&a>1&$limit=5&b=c&$top=2" Trace.empty
  rw [split] at isRead
  obtain ⟨left, after, leftRead⟩ := isRead.mpr ⟨fits, isFilter, _, _, applied⟩
  have read := read_rearranged rearranged {} Trace.empty
  obtain ⟨right, last, rightRead⟩ := read.1.mp ⟨left, after, leftRead⟩
  exact ⟨left, after, right, last, leftRead, rightRead,
    read.2 left after right last leftRead rightRead⟩

end UrlFilter.Query
