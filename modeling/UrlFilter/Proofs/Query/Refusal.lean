import UrlFilter.Proofs.Query.Control

/-!
# Refused control segments

A run of control segments fails at a counting control whose text is not an integer, or where
fields are given to `$order` after text has been passed on for `$sort`. No other control ever
makes it fail.
-/

namespace UrlFilter.Control

open Numeral Text

/-- What is set, if anything is, can take further fields. -/
def TakesFields (old : Option Control) : Prop :=
  ∀ control, old = some control → ∃ entries, control = .flags entries

/-- The keys that fields are given to. -/
def fieldKeys : List String :=
  [selectKey, orderKey]

/-- The text of a counting control is an integer. -/
def Countable (segment : String) : Prop :=
  ∃ number, Integer.read (contentOf segment) = .ok number

/-- Fields are given to `$order` after text has been passed on for `$sort`, and no counting
control before that lacks its integer. -/
def Misordered (segments : List String) : Prop :=
  ∃ before segment rest, segments = before ++ segment :: rest ∧ nameOf segment = orderKey ∧
    (∃ text ∈ before, nameOf text = sortKey) ∧
    ∀ counting ∈ before, nameOf counting ∈ countingKeys → Countable counting

/-- The control segment is known, or it passes text on for `$sort`. -/
def Matters (segment : String) : Prop :=
  nameOf segment ∈ sortKey :: knownKeys

instance : DecidablePred Matters :=
  fun segment => inferInstanceAs (Decidable (nameOf segment ∈ sortKey :: knownKeys))

variable {controls others updated : Table Control} {segment : String}
  {segments before : List String} {trace otherTrace after : Trace} {failure : ControlFailure}
  {old result : Option Control} {control : Control}

/-- Fields can be added where nothing is set. -/
theorem takesFields_none : TakesFields none := by
  rintro _ ⟨⟩

/-- Where something is set, fields can be added to fields only. -/
theorem takesFields_some : TakesFields (some control) ↔ ∃ entries, control = .flags entries :=
  ⟨fun takes => takes control rfl, fun isFlags _ same => Option.some.inj same ▸ isFlags⟩

/-- Fields are added where they can be. -/
theorem withFields_eq_ok {key : String} {flags : Table Int}
    (added : withFields key flags old = .ok control) :
    TakesFields old ∧ TakesFields (some control) := by
  rcases old with _ | (earlier | _ | _ | _) <;> cases added
  · exact ⟨takesFields_none, takesFields_some.mpr ⟨flags, rfl⟩⟩
  · exact ⟨takesFields_some.mpr ⟨earlier, rfl⟩, takesFields_some.mpr ⟨_, rfl⟩⟩

/-- Fields are refused where they cannot be added. -/
theorem withFields_eq_error {key : String} {flags : Table Int} :
    withFields key flags old = .error failure ↔ ¬ TakesFields old ∧ failure = .notFlags key := by
  rcases old with _ | (earlier | _ | _ | _) <;>
    simp [withFields, takesFields_none, takesFields_some, eq_comm]

/-- A control segment gives fields, counts, or sets what does not depend on what is set and
cannot take fields. -/
theorem revise_cases (segment : String) :
    (nameOf segment ∈ fieldKeys ∧
      ∃ flags, revise segment = withFields (target segment) flags) ∨
    (nameOf segment ∈ countingKeys ∧
      ∀ old, revise segment old = counted (nameOf segment) (contentOf segment)) ∨
    (nameOf segment ∉ fieldKeys ∧ nameOf segment ∉ countingKeys ∧
      ∃ control, ¬ TakesFields (some control) ∧ ∀ old, revise segment old = .ok control) := by
  unfold revise target
  generalize nameOf segment = name
  generalize contentOf segment = content
  by_cases isSelect : name = selectKey
  · subst isSelect
    exact .inl ⟨by decide, fieldFlags 1 0 content, rfl⟩
  by_cases isOrder : name = orderKey
  · subst isOrder
    exact .inl ⟨by decide, fieldFlags 1 (-1) content, rfl⟩
  have notFields : name ∉ fieldKeys := by
    simp [fieldKeys, isSelect, isOrder]
  by_cases counts : name ∈ countingKeys
  · refine .inr (.inl ⟨counts, fun _ => ?_⟩)
    simp only [isSelect, isOrder, counts, if_true, if_false]
  refine .inr (.inr ⟨notFields, counts, ?_⟩)
  by_cases isCount : name = countKey
  · subst isCount
    exact ⟨.present, by simp [takesFields_some], fun _ => rfl⟩
  · refine ⟨.text content, by simp [takesFields_some], fun _ => ?_⟩
    simp only [isSelect, isOrder, counts, isCount, if_false]

/-- A count is refused exactly if its text is no integer. -/
theorem counted_eq_error {name content : String} :
    counted name content = .error failure ↔
      (¬ ∃ number, Integer.read content = .ok number) ∧ failure = .notAnInteger name content := by
  unfold counted
  cases Integer.read content <;> simp [eq_comm]

/-- A control segment is refused if it counts without an integer or gives fields to what cannot
take them, and only then. -/
theorem revise_eq_error :
    revise segment old = .error failure ↔
      (nameOf segment ∈ countingKeys ∧ ¬ Countable segment ∧
        failure = .notAnInteger (nameOf segment) (contentOf segment)) ∨
      (nameOf segment ∈ fieldKeys ∧ ¬ TakesFields old ∧ failure = .notFlags (target segment)) := by
  have apart : ∀ name ∈ fieldKeys, name ∉ countingKeys := by decide
  rcases revise_cases segment with ⟨gives, flags, revised⟩ | ⟨counts, revised⟩ |
    ⟨notFields, notCounting, control, _, revised⟩
  · have notCounting := apart _ gives
    simp [revised, withFields_eq_error, gives, notCounting]
  · have notFields : nameOf segment ∉ fieldKeys := fun gives => apart _ gives counts
    simp [revised, counted_eq_error, counts, notFields, Countable]
  · simp [revised, notFields, notCounting]

/-- What a segment sets under a key of fields can take further fields if it gives fields
itself and what was set before could. -/
theorem takesFields_of_revise (keyed : target segment ∈ [selectKey, sortKey])
    (revised : revise segment old = .ok control) :
    TakesFields (some control) ↔ TakesFields old ∧ nameOf segment ∈ fieldKeys := by
  rcases revise_cases segment with ⟨gives, flags, isRevision⟩ | ⟨counts, _⟩ |
    ⟨notFields, _, other, cannot, isRevision⟩
  · rw [isRevision] at revised
    obtain ⟨takes, takesAfter⟩ := withFields_eq_ok revised
    exact iff_of_true takesAfter ⟨takes, gives⟩
  · have notKeyed : target segment ∉ [selectKey, sortKey] := by
      unfold target
      revert counts
      generalize nameOf segment = name
      revert name
      decide
    exact absurd keyed notKeyed
  · rw [isRevision] at revised
    cases revised
    exact iff_of_false cannot fun ⟨_, gives⟩ => notFields gives

/-- What segments set under a key of fields can take further fields if all of them give fields
and what was set before could. -/
theorem takesFields_of_settle (keyed : ∀ segment ∈ segments, target segment ∈ [selectKey, sortKey])
    (settled : settle segments old = .ok result) :
    TakesFields result ↔ TakesFields old ∧ ∀ segment ∈ segments, nameOf segment ∈ fieldKeys := by
  induction segments generalizing old with
  | nil =>
    cases settled
    simp
  | cons segment rest inductionHypothesis =>
    rw [List.forall_mem_cons] at keyed
    rw [settle_cons] at settled
    cases revised : revise segment old with
    | error failure =>
      rw [revised] at settled
      cases settled
    | ok control =>
      rw [revised] at settled
      rw [inductionHypothesis keyed.2 settled, takesFields_of_revise keyed.1 revised,
        List.forall_mem_cons, and_assoc]

/-- After a run, what is set under a key of fields can take further fields if all segments that
write the key give fields. -/
theorem takesFields_iff {key : String} (keyed : key ∈ [selectKey, sortKey])
    (applies : Applies segments [] trace updated after) :
    TakesFields (updated.get? key) ↔
      ∀ segment ∈ segments, target segment = key → nameOf segment ∈ fieldKeys := by
  have settled := applies.settle key
  rw [Table.get?_nil] at settled
  have allKeyed : ∀ segment ∈ writers key segments, target segment ∈ [selectKey, sortKey] := by
    intro segment isWriter
    simp only [writers, List.mem_filter, decide_eq_true_eq] at isWriter
    rw [isWriter.2]
    exact keyed
  rw [takesFields_of_settle allKeyed settled]
  simp [takesFields_none, writers]

/-- The segments that write selected fields are those of the one name. -/
theorem target_eq_selectKey : target segment = selectKey ↔ nameOf segment = selectKey := by
  unfold target
  split
  · next isOrder =>
    rw [isOrder]
    decide
  split
  · next isTop =>
    rw [isTop]
    decide
  · rfl

/-- The segments that write ordering fields are those of ordering, and those of sorting that are
passed on. -/
theorem target_eq_sortKey :
    target segment = sortKey ↔ nameOf segment = orderKey ∨ nameOf segment = sortKey := by
  unfold target
  split
  · next isOrder =>
    rw [isOrder]
    decide
  · next notOrder =>
    split
    · next isTop =>
      rw [isTop]
      decide
    · simp [notOrder]

/-- Selected fields can always be added. -/
theorem takesFields_select (applies : Applies segments [] trace updated after) :
    TakesFields (updated.get? selectKey) := by
  rw [takesFields_iff (by decide) applies]
  intro segment _ selects
  rw [target_eq_selectKey.mp selects]
  decide

/-- Ordering fields can be added as long as no text has been passed on for their key. -/
theorem takesFields_sort (applies : Applies segments [] trace updated after) :
    TakesFields (updated.get? sortKey) ↔ ¬ ∃ segment ∈ segments, nameOf segment = sortKey := by
  have passesOn : sortKey ∉ fieldKeys := by decide
  have gives : orderKey ∈ fieldKeys := by decide
  rw [takesFields_iff (by decide) applies]
  constructor
  · rintro all ⟨segment, isSegment, isSort⟩
    have named := all segment isSegment (target_eq_sortKey.mpr (.inr isSort))
    exact passesOn (isSort ▸ named)
  · intro none segment isSegment writes
    rcases target_eq_sortKey.mp writes with isOrder | isSort
    · exact isOrder ▸ gives
    · exact absurd ⟨segment, isSegment, isSort⟩ none

/-- In a run that succeeds every counting control has its integer. -/
theorem Applies.countable (applies : Applies segments controls trace updated after) :
    ∀ segment ∈ segments, nameOf segment ∈ countingKeys → Countable segment := by
  intro segment isSegment counts
  obtain ⟨old, control, revised⟩ := applies.exists_revise segment isSegment
  apply Classical.byContradiction
  intro unread
  rw [revise_eq_error.mpr (.inl ⟨counts, unread, rfl⟩)] at revised
  cases revised

/-- A run fails at a counting control without its integer or where fields are given to text. -/
theorem applyAll_error (failed : applyAll segments trace = .error failure after) :
    (∃ segment ∈ segments, nameOf segment ∈ countingKeys ∧ ¬ Countable segment ∧
      failure = .notAnInteger (nameOf segment) (contentOf segment)) ∨
    (failure = .notFlags sortKey ∧ Misordered segments) := by
  obtain ⟨before, segment, rest, updated, rfl, applies, refused⟩ := foldlM_apply_eq_error.mp failed
  rcases revise_eq_error.mp refused with ⟨counts, unread, rfl⟩ | ⟨gives, cannot, rfl⟩
  · exact .inl ⟨segment, by simp, counts, unread, rfl⟩
  · right
    simp only [fieldKeys, List.mem_cons, List.not_mem_nil, or_false] at gives
    rcases gives with isSelect | isOrder
    · rw [target_eq_selectKey.mpr isSelect] at cannot
      exact absurd (takesFields_select applies) cannot
    · have writes := target_eq_sortKey.mpr (.inl isOrder)
      rw [writes, takesFields_sort applies, Classical.not_not] at cannot
      exact ⟨congrArg _ writes, before, segment, rest, rfl, isOrder, cannot,
        applies.countable⟩

/-- A run over controls that are out of order fails where fields are given to text. -/
theorem applyAll_of_misordered (misordered : Misordered segments) (trace : Trace) :
    ∃ after, applyAll segments trace = .error (.notFlags sortKey) after := by
  obtain ⟨before, segment, rest, rfl, isOrder, passed, countable⟩ := misordered
  have writes := target_eq_sortKey.mpr (.inl isOrder)
  cases applied : applyAll before trace with
  | ok updated after =>
    have applies := foldlM_apply_eq_ok.mp applied
    have cannot : ¬ TakesFields (updated.get? sortKey) := by
      rw [takesFields_sort applies, Classical.not_not]
      exact passed
    have refused : revise segment (updated.get? (target segment)) = .error (.notFlags sortKey) := by
      rw [revise_eq_error, writes]
      exact .inr ⟨by rw [isOrder]; decide, cannot, rfl⟩
    exact ⟨after, foldlM_apply_eq_error.mpr ⟨before, segment, rest, updated, rfl, applies, refused⟩⟩
  | error failure after =>
    -- The run has failed before; since all counting controls have their integers, in this way.
    rcases applyAll_error applied with ⟨counting, isBefore, counts, unread, _⟩ | ⟨rfl, _⟩
    · exact absurd (countable counting isBefore counts) unread
    · obtain ⟨first, refusing, others, updated, rfl, applies, refused⟩ :=
        foldlM_apply_eq_error.mp applied
      refine ⟨after, foldlM_apply_eq_error.mpr
        ⟨first, refusing, others ++ segment :: rest, updated, ?_, applies, refused⟩⟩
      simp

/-- Only segments that give fields look at what is set. -/
theorem revise_congr {other : Option Control} (same : nameOf segment ∈ fieldKeys → old = other) :
    revise segment old = revise segment other := by
  rcases revise_cases segment with ⟨gives, _⟩ | ⟨_, revised⟩ | ⟨_, _, control, _, revised⟩
  · rw [same gives]
  · rw [revised, revised]
  · rw [revised, revised]

/-- Segments that give fields write one of two keys. -/
theorem target_of_gives (gives : nameOf segment ∈ fieldKeys) :
    target segment ∈ [selectKey, sortKey] := by
  simp only [fieldKeys, List.mem_cons, List.not_mem_nil, or_false] at gives ⊢
  exact gives.imp target_eq_selectKey.mpr fun isOrder => target_eq_sortKey.mpr (.inl isOrder)

/-- A control that does not matter is not refused, and it writes no key of fields. -/
theorem exists_revise_of_not_matters (idle : ¬ Matters segment) (old : Option Control) :
    target segment ∉ [selectKey, sortKey] ∧ ∃ control, revise segment old = .ok control := by
  constructor
  · intro keyed
    simp only [List.mem_cons, List.not_mem_nil, or_false] at keyed
    rcases keyed with selects | sorts
    · refine idle ?_
      rw [Matters, target_eq_selectKey.mp selects]
      decide
    · rcases target_eq_sortKey.mp sorts with isOrder | isSort
      · refine idle ?_
        rw [Matters, isOrder]
        decide
      · refine idle ?_
        rw [Matters, isSort]
        decide
  · cases revised : revise segment old with
    | ok control => exact ⟨control, rfl⟩
    | error failure =>
      have known :
          ∀ name, name ∈ countingKeys ∨ name ∈ fieldKeys → name ∈ sortKey :: knownKeys := by
        simp only [or_imp, forall_and]
        decide
      rcases revise_eq_error.mp revised with ⟨counts, _⟩ | ⟨gives, _⟩
      · exact absurd (known _ (.inl counts)) idle
      · exact absurd (known _ (.inr gives)) idle

/-- Whether and how a run fails does not depend on controls that do not matter. -/
theorem foldlM_apply_error_filter
    (agree : ∀ key ∈ [selectKey, sortKey], controls.get? key = others.get? key) :
    (∃ after, segments.foldlM apply controls trace = .error failure after) ↔
      ∃ after,
        (segments.filter (Matters ·)).foldlM apply others otherTrace = .error failure after := by
  induction segments generalizing controls others trace otherTrace with
  | nil =>
    constructor <;> rintro ⟨_, failed⟩ <;> cases failed
  | cons segment rest inductionHypothesis =>
    by_cases matters : Matters segment
    · have same := @revise_congr segment (controls.get? (target segment))
        (others.get? (target segment)) fun gives => agree _ (target_of_gives gives)
      rw [List.filter_cons_of_pos (by simpa using matters), foldlM_apply_cons, foldlM_apply_cons,
        same]
      cases revise segment (others.get? (target segment)) with
      | error refusal => simp
      | ok control =>
        apply inductionHypothesis
        intro key keyed
        rw [Table.get?_put, Table.get?_put, agree key keyed]
    · obtain ⟨apart, control, revised⟩ :=
        exists_revise_of_not_matters matters (controls.get? (target segment))
      rw [List.filter_cons_of_neg (by simpa using matters), foldlM_apply_cons, revised]
      apply inductionHypothesis
      intro key keyed
      have different : key ≠ target segment := fun isTarget => apart (isTarget ▸ keyed)
      rw [Table.get?_put, if_neg different, agree key keyed]

/-- Controls that are passed on make no run fail, unless they are passed on for `$sort`. -/
theorem applyAll_error_filter :
    (∃ after, applyAll segments trace = .error failure after) ↔
      ∃ after, applyAll (segments.filter (Matters ·)) trace = .error failure after :=
  foldlM_apply_error_filter fun _ _ => rfl

end UrlFilter.Control
