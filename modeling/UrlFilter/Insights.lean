import UrlFilter.Value

/-!
# Insights

For each field, the set of tags that a query uses on it. Fields are listed in the
order in which they were first recorded; nothing is ever taken away.
-/

namespace UrlFilter

open UrlFilter.Numeral UrlFilter.Text

/-- A field with a tag used on it. -/
abbrev Mark := String × String

/-- The recorded tags of each field. The tags of a field are in increasing order and
without repetition. -/
structure Insights where
  tagsOf : Table (List String)
deriving DecidableEq, Repr

namespace Insights

/-- Nothing is recorded. -/
def empty : Insights :=
  ⟨[]⟩

/-- A set of tags with one more tag. -/
def insertTag (tag : String) : List String → List String
  | [] => [tag]
  | present :: rest =>
    if tag = present then present :: rest
    else if tag < present then tag :: present :: rest
    else present :: insertTag tag rest

/-- The tags recorded for a field. -/
def tags (insights : Insights) (field : String) : List String :=
  (insights.tagsOf.get? field).getD []

/-- The insights after a tag is recorded for a field. -/
def record (insights : Insights) (mark : Mark) : Insights :=
  ⟨insights.tagsOf.put mark.1 (insertTag mark.2 (insights.tags mark.1))⟩

/-- The insights after several tags are recorded, in order. -/
def recordAll (insights : Insights) (marks : List Mark) : Insights :=
  marks.foldl record insights

/-- The fields, in the order in which they were first recorded. -/
def fields (insights : Insights) : List String :=
  insights.tagsOf.keys

/-- Something is recorded for the field. -/
def contains (insights : Insights) (field : String) : Bool :=
  insights.tagsOf.contains field

/-- The number of fields. -/
def size (insights : Insights) : Nat :=
  insights.tagsOf.length

/-- The tag is recorded for the field. -/
def Records (insights : Insights) (field tag : String) : Prop :=
  tag ∈ insights.tags field

/-- The insights as a map from each field to the list of its tags. -/
def toValue (insights : Insights) : Value :=
  .map (insights.tagsOf.map fun (field, tags) => (field, .list (tags.map .text)))

/-- The insights as descriptions show them. -/
def describe (insights : Insights) : Except DescribeError String :=
  return "<InsightTracker: " ++ (← insights.toValue.describe) ++ ">"

@[simp] theorem mem_insertTag (tag other : String) (tags : List String) :
    other ∈ insertTag tag tags ↔ other = tag ∨ other ∈ tags := by
  induction tags with
  | nil => simp [insertTag]
  | cons present rest inductionHypothesis =>
    by_cases same : tag = present
    · simp [insertTag, same]
    · by_cases before : tag < present
      · simp [insertTag, same, before]
      · simp only [insertTag, same, before, if_false, List.mem_cons, inductionHypothesis]
        grind

/-- Recording adds the one tag to the one field. -/
theorem records_record (insights : Insights) (mark : Mark) (field tag : String) :
    (insights.record mark).Records field tag ↔
      insights.Records field tag ∨ (field, tag) = mark := by
  obtain ⟨markField, markTag⟩ := mark
  by_cases same : field = markField
  · subst same
    simp [Records, record, tags, Table.get?_put, or_comm]
  · simp [Records, record, tags, Table.get?_put, same]

/-- Recording several tags adds each of them to its field. -/
theorem records_recordAll (insights : Insights) (marks : List Mark) (field tag : String) :
    (insights.recordAll marks).Records field tag ↔
      insights.Records field tag ∨ (field, tag) ∈ marks := by
  induction marks generalizing insights with
  | nil => simp [recordAll]
  | cons mark rest inductionHypothesis =>
    have step := inductionHypothesis (insights.record mark)
    simp only [recordAll, List.foldl_cons] at step ⊢
    rw [step, records_record]
    simp [or_assoc]

/-- Recording adds the one field, unless it is there. -/
theorem mem_fields_record {insights : Insights} {mark : Mark} {field : String} :
    field ∈ (insights.record mark).fields ↔ field ∈ insights.fields ∨ field = mark.1 := by
  simp only [fields, record, Table.keys_put]
  split
  · next present =>
    refine ⟨.inl, ?_⟩
    rintro (before | rfl)
    · exact before
    · exact present
  · rw [List.mem_append, List.mem_singleton]

/-- Recording several tags adds their fields. -/
theorem mem_fields_recordAll {insights : Insights} {marks : List Mark} {field : String} :
    field ∈ (insights.recordAll marks).fields ↔
      field ∈ insights.fields ∨ field ∈ marks.map (·.1) := by
  induction marks generalizing insights with
  | nil => simp [recordAll]
  | cons mark rest inductionHypothesis =>
    have step := @inductionHypothesis (insights.record mark)
    simp only [recordAll, List.foldl_cons] at step ⊢
    rw [step, mem_fields_record, List.map_cons, List.mem_cons, or_assoc]

end Insights

end UrlFilter
