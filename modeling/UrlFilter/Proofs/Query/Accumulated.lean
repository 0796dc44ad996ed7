import UrlFilter.Proofs.Query.Refusal
import UrlFilter.Proofs.Table

/-!
# Controls that accumulate

The field lists of all segments with one key are read as one list, in whatever segments its entries
stand and whatever stands between these. Of several numbers for one key the last one counts. The
insights are told of the fields that are selected and ordered by, and of nothing else.
-/

namespace UrlFilter.Control

open Numeral Text

/-- The entries of the field list that a control segment gives. -/
def listed (segment : String) : List (List Char) :=
  nonemptyParts ',' (contentOf segment).toList

/-- The segments with a name. -/
def named (name : String) (segments : List String) : List String :=
  segments.filter fun segment => nameOf segment = name

/-- The segments with other names. -/
def others (name : String) (segments : List String) : List String :=
  segments.filter fun segment => nameOf segment ≠ name

/-- The field lists of the segments with the name are kept under the key as if they were one: each
field in its first place, with the number of its last entry. -/
structure Accumulates (name key : String) (plain negated : Int) (segments : List String)
    (trace : Trace) (controls : Table Control) : Prop where
  present : controls.contains key = true ↔ ∃ segment ∈ segments, nameOf segment = name
  gathered : ∀ control, controls.get? key = some control → ∃ flags, control = .flags flags ∧
    flags.Gathers (((named name segments).flatMap listed).map (flagOf plain negated))
  joined : ∀ joinedSegments, named name segments ≠ [] →
    others name joinedSegments = others name segments →
    named name joinedSegments =
      [name ++ "=" ++ Text.joined "," ((named name segments).map contentOf)] →
    ∃ joinedControls after, applyAll joinedSegments trace = .ok joinedControls after ∧
      joinedControls.get? key = controls.get? key

/-- Under the key stands the number of the last segment with one of the names. -/
structure KeepsLast (names : List String) (key : String) (segments : List String)
    (controls : Table Control) : Prop where
  absent : (∀ segment ∈ segments, nameOf segment ∉ names) → controls.get? key = none
  last : ∀ front segment back, segments = front ++ segment :: back → nameOf segment ∈ names →
    (∀ later ∈ back, nameOf later ∉ names) →
    ∃ number, Integer.read (contentOf segment) = .ok number ∧
      controls.get? key = some (.count number)

/-- The segments that write the key are those with the name, and they give fields. -/
structure WritesFields (name key : String) (plain negated : Int) (segments : List String) :
    Prop where
  noSign : ∀ c ∈ name.toList, c ≠ '='
  revise : ∀ segment, nameOf segment = name →
    revise segment = withFields key (fieldFlags plain negated (contentOf segment))
  target : ∀ segment, nameOf segment = name → target segment = key
  only : ∀ segment ∈ segments, Control.target segment = key → nameOf segment = name

variable {name key : String} {plain negated : Int} {segments : List String} {trace after : Trace}
  {controls : Table Control}

/-- Segments that select fields write them under their own key. -/
theorem select_writesFields : WritesFields selectKey selectKey 1 0 segments where
  noSign := by simp [selectKey]
  revise segment isNamed := by
    funext old
    simp only [Control.revise, isNamed, if_true]
  target segment := target_eq_selectKey.mpr
  only segment _ := target_eq_selectKey.mp

/-- Segments that order by fields write them under the key of sorting, if no segment has that name
itself. -/
theorem order_writesFields (unsorted : ∀ segment ∈ segments, nameOf segment ≠ sortKey) :
    WritesFields orderKey sortKey 1 (-1) segments where
  noSign := by simp [orderKey]
  revise segment isNamed := by
    funext old
    have notSelect : orderKey ≠ selectKey := by decide
    simp only [Control.revise, isNamed, notSelect, if_false, if_true]
  target segment isNamed := target_eq_sortKey.mpr (.inl isNamed)
  only segment isSegment writes :=
    (target_eq_sortKey.mp writes).resolve_right (unsorted segment isSegment)

/-- Fields that are added by several segments are added as one list. -/
theorem settle_flags
    (revises : ∀ segment ∈ segments,
      revise segment = withFields key (fieldFlags plain negated (contentOf segment)))
    (earlier : Table Int) :
    settle segments (some (.flags earlier)) = .ok (some (.flags
      (earlier.update ((segments.flatMap listed).map (flagOf plain negated))))) := by
  induction segments generalizing earlier with
  | nil => rfl
  | cons segment rest inductionHypothesis =>
    obtain ⟨revised, restRevises⟩ := List.forall_mem_cons.mp revises
    have added : (earlier.update (fieldFlags plain negated (contentOf segment))).update
        ((rest.flatMap listed).map (flagOf plain negated)) =
          earlier.update (((segment :: rest).flatMap listed).map (flagOf plain negated)) := by
      rw [fieldFlags, Table.update_ofList, List.flatMap_cons, List.map_append, Table.update_append]
      rfl
    rw [settle_cons, revised, ← added]
    exact inductionHypothesis restRevises _

/-- Fields that several segments give to a key without any are the table of one list. -/
theorem settle_fields (nonempty : segments ≠ [])
    (revises : ∀ segment ∈ segments,
      revise segment = withFields key (fieldFlags plain negated (contentOf segment))) :
    settle segments none = .ok (some (.flags
      (Table.ofList ((segments.flatMap listed).map (flagOf plain negated))))) := by
  obtain ⟨segment, rest, rfl⟩ := List.exists_cons_of_ne_nil nonempty
  have fromNothing : revise segment none = revise segment (some (.flags [])) := by
    rw [revises segment List.mem_cons_self, withFields, withFields, fieldFlags,
      Table.update_ofList]
    rfl
  rw [settle_cons, fromNothing, ← settle_cons, settle_flags revises]
  rfl

namespace WritesFields

variable (fields : WritesFields name key plain negated segments)

include fields

/-- The segments that write to the key are those of the name. -/
theorem writers_eq : writers key segments = named name segments :=
  List.filter_congr fun segment isSegment => by
    simpa using ⟨fields.only segment isSegment, fields.target segment⟩

/-- Each segment of the name adds its fields to what stands under the key. -/
theorem revises : ∀ segment ∈ named name segments,
    Control.revise segment = withFields key (fieldFlags plain negated (contentOf segment)) :=
  fun segment isNamed => fields.revise segment (by simpa using (List.mem_filter.mp isNamed).2)

/-- Without a segment of the name nothing stands under the key, and else one table of all the
fields. -/
theorem get?_eq (applies : Applies segments [] trace controls after) :
    controls.get? key = if named name segments = [] then none else
      some (.flags (Table.ofList
        (((named name segments).flatMap listed).map (flagOf plain negated)))) := by
  have settled := applies.settle key
  rw [Table.get?_nil, fields.writers_eq] at settled
  split
  · next nothing =>
    rw [nothing] at settled
    exact (Except.ok.inj settled).symm
  · next something =>
    rw [settle_fields something fields.revises] at settled
    exact (Except.ok.inj settled).symm

/-- Something stands under the key exactly if there is a segment of the name. -/
theorem present (applies : Applies segments [] trace controls after) :
    controls.contains key = true ↔ ∃ segment ∈ segments, nameOf segment = name := by
  have isNamed : (∃ segment ∈ segments, nameOf segment = name) ↔ named name segments ≠ [] := by
    simp [named]
  rw [isNamed, Table.contains, fields.get?_eq applies]
  split <;> simp_all

/-- What stands under the key gathers the fields of all segments of the name, in order. -/
theorem gathered (applies : Applies segments [] trace controls after) {control : Control}
    (isSet : controls.get? key = some control) : ∃ flags, control = .flags flags ∧
      flags.Gathers (((named name segments).flatMap listed).map (flagOf plain negated)) := by
  rw [fields.get?_eq applies] at isSet
  split at isSet
  · cases isSet
  · cases isSet
    exact ⟨_, rfl, Table.gathers_ofList _⟩

/-- The fields that are set are those that the segments give. -/
theorem mem_keys_iff (applies : Applies segments [] trace controls after) {field : String} :
    (∃ flags, controls.get? key = some (.flags flags) ∧ field ∈ flags.keys) ↔
      ∃ segment ∈ segments, nameOf segment = name ∧
        field ∈ (fieldFlags plain negated (contentOf segment)).keys := by
  have given : field ∈ Table.keys
        (((named name segments).flatMap listed).map (flagOf plain negated)) ↔
      ∃ segment ∈ segments, nameOf segment = name ∧
        field ∈ (fieldFlags plain negated (contentOf segment)).keys := by
    simp only [fieldFlags, Table.mem_keys_ofList]
    simp only [Table.keys, List.mem_map, List.mem_flatMap, named, List.mem_filter,
      decide_eq_true_eq, listed]
    grind
  rw [← given, fields.get?_eq applies]
  split
  · next nothing => simp [nothing, Table.keys]
  · simp [Table.mem_keys_ofList]

/-- What is written under another key is written by segments of other names. -/
theorem writers_others {other : String} (different : other ≠ key) :
    writers other segments = writers other (others name segments) := by
  rw [writers, writers, others, List.filter_filter]
  refine List.filter_congr fun segment _ => ?_
  by_cases isNamed : nameOf segment = name
  · simp [isNamed, fields.target segment isNamed, Ne.symm different]
  · simp [isNamed]

/-- One list in the place of several is applied where they are, and sets the same. -/
theorem joined {joinedSegments : List String}
    (joinedFields : WritesFields name key plain negated joinedSegments)
    (applies : Applies segments [] trace controls after)
    (nonempty : named name segments ≠ [])
    (sameOthers : others name joinedSegments = others name segments)
    (isJoined : named name joinedSegments =
      [name ++ "=" ++ Text.joined "," ((named name segments).map contentOf)]) :
    ∃ joinedControls joinedAfter,
      applyAll joinedSegments trace = .ok joinedControls joinedAfter ∧
        joinedControls.get? key = controls.get? key := by
  have sameLists : (named name joinedSegments).flatMap listed =
      (named name segments).flatMap listed := by
    rw [isJoined, List.flatMap_singleton, listed, (nameOf_contentOf fields.noSign _).2]
    have parts := nonemptyParts_joined_eq_flatMap ',' ((named name segments).map contentOf)
    rw [List.flatMap_map] at parts
    exact parts
  have joinedNonempty : named name joinedSegments ≠ [] := by simp [isJoined]
  have settled : ∀ other, ∃ control, settle (writers other joinedSegments) none = .ok control := by
    intro other
    by_cases isKey : other = key
    · rw [isKey, joinedFields.writers_eq]
      exact ⟨_, settle_fields joinedNonempty joinedFields.revises⟩
    · have settledBefore := applies.settle other
      rw [fields.writers_others isKey, ← sameOthers, ← joinedFields.writers_others isKey]
        at settledBefore
      exact ⟨_, settledBefore⟩
  obtain ⟨joinedControls, joinedAfter, applied⟩ := exists_applyAll_iff.mpr settled
  refine ⟨joinedControls, joinedAfter, applied, ?_⟩
  rw [joinedFields.get?_eq (foldlM_apply_eq_ok.mp applied), fields.get?_eq applies, sameLists,
    if_neg nonempty, if_neg joinedNonempty]

end WritesFields

section Counts

variable {names : List String}

/-- The segments that write a limit are those of either of its names. -/
theorem target_eq_limitKey {segment : String} :
    target segment = limitKey ↔ nameOf segment ∈ [limitKey, topKey] := by
  unfold target
  split
  · next isOrder =>
    rw [isOrder]
    decide
  · split
    · next isTop => simp [isTop]
    · next notTop => simp [notTop]

/-- The segments that write how many are left out are those of the one name. -/
theorem target_eq_skipKey {segment : String} :
    target segment = skipKey ↔ nameOf segment ∈ [skipKey] := by
  unfold target
  split
  · next isOrder =>
    rw [isOrder]
    decide
  · split
    · next isTop =>
      rw [isTop]
      decide
    · simp

/-- A counting control sets its number, whatever was set before. -/
theorem revise_of_counts {segment : String} (counts : nameOf segment ∈ countingKeys)
    (old : Option Control) :
    revise segment old = counted (nameOf segment) (contentOf segment) := by
  have apart : ∀ name ∈ countingKeys, name ≠ selectKey ∧ name ≠ orderKey := by decide
  obtain ⟨notSelect, notOrder⟩ := apart _ counts
  simp only [revise, notSelect, notOrder, counts, if_false, if_true]

/-- The last segment revises what the segments in front of it have settled. -/
theorem settle_concat (segments : List String) (segment : String) (old : Option Control) :
    settle (segments ++ [segment]) old =
      (settle segments old).bind fun current => (revise segment current).map some := by
  simp only [settle, List.foldlM_append, List.foldlM_cons, List.foldlM_nil, bind_pure]
  rfl

/-- The last of the segments that write a number under the key counts. -/
theorem keepsLast_of_applies (applies : Applies segments [] trace controls after)
    (targets : ∀ segment, target segment = key ↔ nameOf segment ∈ names)
    (counts : ∀ name ∈ names, name ∈ countingKeys) : KeepsLast names key segments controls := by
  have settled := applies.settle key
  rw [Table.get?_nil] at settled
  constructor
  · intro unnamed
    have noWriters : writers key segments = [] :=
      List.filter_eq_nil_iff.mpr fun segment isSegment => by
        simpa [targets] using unnamed segment isSegment
    rw [noWriters] at settled
    exact (Except.ok.inj settled).symm
  · rintro front segment back rfl isNamed unnamed
    have lastWriter : writers key (front ++ segment :: back) = writers key front ++ [segment] := by
      have noLater : writers key back = [] := List.filter_eq_nil_iff.mpr fun later isLater => by
        simpa [targets] using unnamed later isLater
      rw [writers, List.filter_append, List.filter_cons_of_pos (by simpa [targets] using isNamed)]
      exact congrArg (writers key front ++ segment :: ·) noLater
    rw [lastWriter, settle_concat] at settled
    cases before : settle (writers key front) none with
    | error failure =>
      rw [before] at settled
      cases settled
    | ok old =>
      rw [before] at settled
      simp only [Except.bind, revise_of_counts (counts _ isNamed), counted] at settled
      cases reads : Integer.read (contentOf segment) with
      | error failure =>
        rw [reads] at settled
        cases settled
      | ok number =>
        rw [reads] at settled
        exact ⟨number, rfl, (Except.ok.inj settled).symm⟩

end Counts

/-- A segment records its tag for the fields that it gives. -/
theorem mem_marks_segment {segment field tag : String} :
    (field, tag) ∈ marks segment ↔
      (nameOf segment = selectKey ∧ tag = selectKey ∧
        field ∈ (fieldFlags 1 0 (contentOf segment)).keys) ∨
      (nameOf segment = orderKey ∧ tag = orderKey ∧
        field ∈ (fieldFlags 1 (-1) (contentOf segment)).keys) := by
  have different : orderKey ≠ selectKey := by decide
  unfold marks
  split
  · next selects =>
    simp [selects, Ne.symm different, eq_comm, and_comm]
  · next notSelect =>
    split
    · next orders => simp [orders, different, eq_comm, and_comm]
    · next notOrder => simp [notSelect, notOrder]

/-- The field lists of `$select` and of `$order` accumulate over all segments, the last number
counts, and what is recorded is what was recorded before and the fields that are set at the end. -/
theorem applyAll_accumulates (unsorted : ∀ segment ∈ segments, nameOf segment ≠ sortKey)
    (applied : applyAll segments trace = .ok controls after) :
    Accumulates selectKey selectKey 1 0 segments trace controls ∧
    Accumulates orderKey sortKey 1 (-1) segments trace controls ∧
    KeepsLast [limitKey, topKey] limitKey segments controls ∧
    KeepsLast [skipKey] skipKey segments controls ∧
    ∀ field tag, after.insights.Records field tag ↔ trace.insights.Records field tag ∨
      (tag = selectKey ∧
        ∃ flags, controls.get? selectKey = some (.flags flags) ∧ field ∈ flags.keys) ∨
      (tag = orderKey ∧
        ∃ flags, controls.get? sortKey = some (.flags flags) ∧ field ∈ flags.keys) := by
  have applies := foldlM_apply_eq_ok.mp applied
  have select := @select_writesFields segments
  have order := order_writesFields unsorted
  refine ⟨⟨select.present applies, fun _ => select.gathered applies, ?_⟩,
    ⟨order.present applies, fun _ => order.gathered applies, ?_⟩,
    keepsLast_of_applies applies (fun _ => target_eq_limitKey) (by decide),
    keepsLast_of_applies applies (fun _ => target_eq_skipKey) (by decide), ?_⟩
  · intro joinedSegments nonempty sameOthers isJoined
    exact select.joined select_writesFields applies nonempty sameOthers isJoined
  · intro joinedSegments nonempty sameOthers isJoined
    have joinedUnsorted : ∀ segment ∈ joinedSegments, nameOf segment ≠ sortKey := by
      intro segment isSegment isSort
      have isOther : segment ∈ others orderKey joinedSegments :=
        List.mem_filter.mpr ⟨isSegment, by simp [isSort, sortKey, orderKey]⟩
      rw [sameOthers] at isOther
      exact unsorted segment (List.mem_filter.mp isOther).1 isSort
    exact order.joined (order_writesFields joinedUnsorted) applies nonempty sameOthers isJoined
  · intro field tag
    rw [applies.trace_eq, insights_foldl_leave, Insights.records_recordAll, List.mem_flatMap,
      select.mem_keys_iff applies, order.mem_keys_iff applies]
    simp only [mem_marks_segment]
    grind

/-- Segments that name fields again with the other sign, with other controls between them. -/
def spreadSegments : List String :=
  ["$select=a,-b", "$top=5", "$order=-x,-y", "z=1", "$select=,b,-a,c", "$limit=7", "$order=x",
    "$skip=2"]

/-- A field keeps the place of its first segment and has the sign of its last one. -/
theorem applyAll_accumulates_spreadSegments :
    (∀ segment ∈ spreadSegments, nameOf segment ≠ sortKey) ∧
    ∃ controls after, applyAll spreadSegments Trace.empty = .ok controls after ∧
      controls.get? selectKey = some (.flags [("a", 0), ("b", 1), ("c", 1)]) ∧
      controls.get? sortKey = some (.flags [("x", 1), ("y", -1)]) ∧
      controls.get? limitKey = some (.count 7) ∧
      (∀ field tag, after.insights.Records field tag ↔
        (tag = selectKey ∧ field ∈ ["a", "b", "c"]) ∨ (tag = orderKey ∧ field ∈ ["x", "y"])) := by
  have unsorted : ∀ segment ∈ spreadSegments, nameOf segment ≠ sortKey := by decide
  obtain ⟨controls, after, applied, selected, sorted, limited⟩ : ∃ controls after,
      applyAll spreadSegments Trace.empty = .ok controls after ∧
        controls.get? selectKey = some (.flags [("a", 0), ("b", 1), ("c", 1)]) ∧
        controls.get? sortKey = some (.flags [("x", 1), ("y", -1)]) ∧
        controls.get? limitKey = some (.count 7) :=
    ⟨_, _, rfl, rfl, rfl, rfl⟩
  obtain ⟨_, _, _, _, records⟩ := applyAll_accumulates unsorted applied
  refine ⟨unsorted, controls, after, applied, selected, sorted, limited, fun field tag => ?_⟩
  have nothing : ¬ Trace.empty.insights.Records field tag := List.not_mem_nil
  rw [records, selected, sorted]
  simp only [nothing, false_or, Option.some.injEq, Control.flags.injEq, exists_eq_left']
  exact Iff.rfl

end UrlFilter.Control
