import UrlFilter.Query.Control

/-!
# Runs of control segments

A control segment reads and writes what is set under one key and nothing else. A run of
segments therefore does to each key what the segments that write this key do to it, in their
order, and it stops at the first segment that refuses what it finds.
-/

namespace UrlFilter.Control

open Numeral Text

/-- The key that a control segment is written with. -/
def nameOf (segment : String) : String :=
  String.ofList (partition '=' segment.toList).1

/-- The text that a control segment gives for its key. -/
def contentOf (segment : String) : String :=
  String.ofList (partition '=' segment.toList).2

/-- The key that a control segment writes; two keys can be written with another one. -/
def target (segment : String) : String :=
  if nameOf segment = orderKey then sortKey
  else if nameOf segment = topKey then limitKey
  else nameOf segment

/-- A key, an equality sign and a text are a control segment with this key and this text. -/
theorem nameOf_contentOf {name : String} (noSign : ∀ c ∈ name.toList, c ≠ '=')
    (content : String) :
    nameOf (name ++ "=" ++ content) = name ∧ contentOf (name ++ "=" ++ content) = content := by
  have characters : (name ++ "=" ++ content).toList = name.toList ++ '=' :: content.toList := by
    simp
  rw [nameOf, contentOf, characters, partition_append noSign]
  simp

/-- The keys that are not passed on. -/
def knownKeys : List String :=
  [selectKey, orderKey, limitKey, topKey, skipKey, countKey]

/-- The keys of a number of results. -/
def countingKeys : List String :=
  [limitKey, topKey, skipKey]

/-- Fields are added to what is set under a key. -/
def withFields (key : String) (flags : Table Int) : Option Control → Except ControlFailure Control
  | none => .ok (.flags flags)
  | some (.flags earlier) => .ok (.flags (earlier.update flags))
  | some _ => .error (.notFlags key)

/-- The number that a segment with a key and a text sets. -/
def counted (name content : String) : Except ControlFailure Control :=
  match Integer.read content with
  | .ok number => .ok (.count number)
  | .error _ => .error (.notAnInteger name content)

/-- What a control segment makes of what is set under the key that it writes. -/
def revise (segment : String) (old : Option Control) : Except ControlFailure Control :=
  if nameOf segment = selectKey then
    withFields selectKey (fieldFlags 1 0 (contentOf segment)) old
  else if nameOf segment = orderKey then
    withFields sortKey (fieldFlags 1 (-1) (contentOf segment)) old
  else if nameOf segment ∈ countingKeys then counted (nameOf segment) (contentOf segment)
  else if nameOf segment = countKey then .ok .present
  else .ok (.text (contentOf segment))

/-- The tags that a control segment records. -/
def marks (segment : String) : List Mark :=
  if nameOf segment = selectKey then
    (fieldFlags 1 0 (contentOf segment)).keys.map fun field => (field, selectKey)
  else if nameOf segment = orderKey then
    (fieldFlags 1 (-1) (contentOf segment)).keys.map fun field => (field, orderKey)
  else []

/-- What the journal is told of a control segment. -/
def notes (segment : String) : List LogRecord :=
  if nameOf segment ∈ knownKeys then []
  else [⟨.debug, loggerName (some component), "Passing through control " ++ nameOf segment⟩]

/-- The trace after a control segment is applied. -/
def leave (trace : Trace) (segment : String) : Trace :=
  ⟨trace.insights.recordAll (marks segment), trace.log ++ notes segment⟩

variable {controls updated : Table Control} {segment : String} {trace after : Trace}
  {segments : List String} {failure : ControlFailure}

/-- Fields that are added change what stands under their key and nothing else. -/
theorem addFlags_eq (controls : Table Control) (key : String) (flags : Table Int) :
    addFlags controls key flags =
      (withFields key flags (controls.get? key)).map (controls.put key) := by
  unfold addFlags
  split
  · next absent => rw [absent]; rfl
  · next earlier present => rw [present]; rfl
  · next control notFlags present =>
    rw [present]
    cases control with
    | flags entries => exact absurd rfl (notFlags entries)
    | count _ | present | text _ => rfl

/-- Fields are added and recorded, or there is a failure and nothing is recorded. -/
theorem applyFlags_eq (controls : Table Control) (key tag : String) (flags : Table Int)
    (trace : Trace) :
    applyFlags controls key tag flags trace =
      match withFields key flags (controls.get? key) with
      | .ok control =>
        .ok (controls.put key control) (trace.recordAll (flags.keys.map fun field => (field, tag)))
      | .error failure => .error failure trace := by
  rw [applyFlags, addFlags_eq]
  cases withFields key flags (controls.get? key) <;> rfl

/-- A number is written under its key, or there is a failure. -/
theorem applyCount_eq (controls : Table Control) (key name content : String) (trace : Trace) :
    applyCount controls key name content trace =
      match counted name content with
      | .ok control => .ok (controls.put key control) trace
      | .error failure => .error failure trace := by
  unfold applyCount counted
  cases Integer.read content <;> rfl

/-- A control segment reads what is set under its key, and writes it or fails. -/
theorem apply_eq (controls : Table Control) (segment : String) (trace : Trace) :
    apply controls segment trace =
      match revise segment (controls.get? (target segment)) with
      | .ok control => .ok (controls.put (target segment) control) (leave trace segment)
      | .error failure => .error failure trace := by
  have untouched : (⟨trace.insights.recordAll [], trace.log ++ []⟩ : Trace) = trace := by
    rw [List.append_nil]
    rfl
  have run : apply controls segment trace =
      (if nameOf segment = selectKey then
        applyFlags controls selectKey selectKey (fieldFlags 1 0 (contentOf segment))
      else if nameOf segment = orderKey then
        applyFlags controls sortKey orderKey (fieldFlags 1 (-1) (contentOf segment))
      else if nameOf segment = limitKey ∨ nameOf segment = topKey then
        applyCount controls limitKey (nameOf segment) (contentOf segment)
      else if nameOf segment = skipKey then
        applyCount controls skipKey (nameOf segment) (contentOf segment)
      else if nameOf segment = countKey then pure (controls.put countKey .present)
      else do
        modify fun trace =>
          trace.note .debug component ("Passing through control " ++ nameOf segment)
        return controls.put (nameOf segment) (.text (contentOf segment))) trace := rfl
  rw [run]
  unfold revise leave marks notes target
  generalize nameOf segment = name
  generalize contentOf segment = content
  -- The cases are the keys in the order in which they are tried.
  by_cases isSelect : name = selectKey
  · subst isSelect
    have notOrder : selectKey ≠ orderKey := by decide
    have notTop : selectKey ≠ topKey := by decide
    have known : selectKey ∈ knownKeys := by decide
    simp only [if_true, notOrder, notTop, known, if_false, List.append_nil, applyFlags_eq]
    rfl
  by_cases isOrder : name = orderKey
  · subst isOrder
    have known : orderKey ∈ knownKeys := by decide
    simp only [if_true, isSelect, known, if_false, List.append_nil, applyFlags_eq]
    rfl
  by_cases isLimit : name = limitKey ∨ name = topKey
  · have counts : name ∈ countingKeys := by
      rcases isLimit with rfl | rfl <;> decide
    have known : name ∈ knownKeys := by
      rcases isLimit with rfl | rfl <;> decide
    have written : (if name = topKey then limitKey else name) = limitKey := by
      rcases isLimit with rfl | rfl <;> rfl
    simp only [if_true, isSelect, isOrder, isLimit, counts, known, written, if_false,
      applyCount_eq, untouched]
  obtain ⟨notLimit, notTop⟩ := not_or.mp isLimit
  by_cases isSkip : name = skipKey
  · subst isSkip
    have counts : skipKey ∈ countingKeys := by decide
    have known : skipKey ∈ knownKeys := by decide
    simp only [isSelect, isOrder, notLimit, notTop, or_self, if_false, if_true, counts, known,
      applyCount_eq, untouched]
  have notCounting : name ∉ countingKeys := by
    simp [countingKeys, notLimit, notTop, isSkip]
  by_cases isCount : name = countKey
  · subst isCount
    have known : countKey ∈ knownKeys := by decide
    simp only [isSelect, isOrder, notLimit, notTop, or_self, isSkip, if_false, if_true,
      notCounting, known, untouched]
    rfl
  · have unknown : name ∉ knownKeys := by
      simp [knownKeys, isSelect, isOrder, notLimit, notTop, isSkip, isCount]
    simp only [isSelect, isOrder, notLimit, notTop, or_self, isSkip, isCount, if_false,
      notCounting, unknown]
    rfl

/-- A segment whose key is not known is passed on with its text, and only the journal is told
of it. -/
theorem apply_of_unknown (unknown : nameOf segment ∉ knownKeys) (controls : Table Control)
    (trace : Trace) :
    apply controls segment trace =
      .ok (controls.put (nameOf segment) (.text (contentOf segment)))
        ⟨trace.insights, trace.log ++ notes segment⟩ := by
  have notCounting : nameOf segment ∉ countingKeys := by
    intro counts
    have known : ∀ key ∈ countingKeys, key ∈ knownKeys := by decide
    exact unknown (known _ counts)
  simp only [knownKeys, List.mem_cons, List.not_mem_nil, or_false, not_or] at unknown
  obtain ⟨notSelect, notOrder, _, notTop, _, notCount⟩ := unknown
  simp only [apply_eq, revise, target, leave, marks, notSelect, notOrder, notTop, notCounting,
    notCount, if_false]
  rfl

/-- What control segments make, one after the other, of what is set under the one key that
they all write. -/
def settle (segments : List String) (old : Option Control) :
    Except ControlFailure (Option Control) :=
  segments.foldlM (fun current segment => (revise segment current).map some) old

/-- The segments that write a key. -/
def writers (key : String) (segments : List String) : List String :=
  segments.filter fun segment => target segment = key

/-- The first segment revises what is there, and the others go on from that. -/
theorem settle_cons (segment : String) (rest : List String) (old : Option Control) :
    settle (segment :: rest) old =
      (revise segment old).bind fun control => settle rest (some control) := by
  rw [settle, List.foldlM_cons]
  cases revise segment old <;> rfl

/-- A segment is one of those that write to its own target. -/
theorem writers_cons_target (segment : String) (rest : List String) :
    writers (target segment) (segment :: rest) = segment :: writers (target segment) rest :=
  List.filter_cons_of_pos (by simp)

/-- A segment is none of those that write to another key. -/
theorem writers_cons_of_ne {key : String} (different : target segment ≠ key)
    (rest : List String) : writers key (segment :: rest) = writers key rest :=
  List.filter_cons_of_neg (by simpa using different)

/-- The first segment changes its target, or the controls are refused there. -/
theorem foldlM_apply_cons (segment : String) (rest : List String) (controls : Table Control)
    (trace : Trace) :
    (segment :: rest).foldlM apply controls trace =
      match revise segment (controls.get? (target segment)) with
      | .ok control =>
        rest.foldlM apply (controls.put (target segment) control) (leave trace segment)
      | .error failure => .error failure trace := by
  rw [List.foldlM_cons]
  simp only [bind, EStateM.bind, apply_eq]
  cases revise segment (controls.get? (target segment)) <;> rfl

/-- Segments are applied one after the other, and none of them is refused. -/
inductive Applies : List String → Table Control → Trace → Table Control → Trace → Prop where
  | nil {controls : Table Control} {trace : Trace} : Applies [] controls trace controls trace
  | cons {segment : String} {rest : List String} {controls updated : Table Control}
      {trace after : Trace} {control : Control}
      (revised : revise segment (controls.get? (target segment)) = .ok control)
      (further : Applies rest (controls.put (target segment) control) (leave trace segment)
        updated after) :
      Applies (segment :: rest) controls trace updated after

/-- A run succeeds exactly if its segments are applied and none is refused. -/
theorem foldlM_apply_eq_ok :
    segments.foldlM apply controls trace = .ok updated after ↔
      Applies segments controls trace updated after := by
  constructor
  · intro applied
    induction segments generalizing controls trace with
    | nil =>
      cases applied
      exact .nil
    | cons segment rest inductionHypothesis =>
      rw [foldlM_apply_cons] at applied
      split at applied
      · next revised => exact .cons revised (inductionHypothesis applied)
      · cases applied
  · intro applies
    induction applies with
    | nil => rfl
    | cons revised _ inductionHypothesis =>
      rw [foldlM_apply_cons, revised]
      exact inductionHypothesis

namespace Applies

/-- Under each key stands what the segments that write it make of it. -/
theorem settle (applies : Applies segments controls trace updated after) (key : String) :
    settle (writers key segments) (controls.get? key) = .ok (updated.get? key) := by
  induction applies with
  | nil => rfl
  | @cons segment rest controls updated trace after control revised _ inductionHypothesis =>
    rw [Table.get?_put] at inductionHypothesis
    by_cases same : target segment = key
    · subst same
      rw [if_pos rfl] at inductionHypothesis
      rw [writers_cons_target, settle_cons, revised]
      exact inductionHypothesis
    · rw [if_neg (Ne.symm same)] at inductionHypothesis
      rw [writers_cons_of_ne same]
      exact inductionHypothesis

/-- Every segment leaves its trace. -/
theorem trace_eq (applies : Applies segments controls trace updated after) :
    after = segments.foldl leave trace := by
  induction applies with
  | nil => rfl
  | cons _ _ inductionHypothesis => exact inductionHypothesis

/-- No key is made to occur twice. -/
theorem distinct (applies : Applies segments controls trace updated after)
    (distinct : controls.Distinct) : updated.Distinct := by
  induction applies with
  | nil => exact distinct
  | cons _ _ inductionHypothesis => exact inductionHypothesis (Table.distinct_put distinct _ _)

/-- Each segment is accepted by something that is set. -/
theorem exists_revise (applies : Applies segments controls trace updated after) :
    ∀ segment ∈ segments, ∃ old control, revise segment old = .ok control := by
  induction applies with
  | nil => simp
  | cons revised _ inductionHypothesis =>
    rw [List.forall_mem_cons]
    exact ⟨⟨_, _, revised⟩, inductionHypothesis⟩

/-- Further segments go on where the segments before them end. -/
theorem foldlM_append (applies : Applies segments controls trace updated after)
    (rest : List String) :
    (segments ++ rest).foldlM apply controls trace = rest.foldlM apply updated after := by
  induction applies with
  | nil => rfl
  | cons revised _ inductionHypothesis =>
    rw [List.cons_append, foldlM_apply_cons, revised]
    exact inductionHypothesis

end Applies

/-- The segments of a run record their tags in order. -/
theorem insights_foldl_leave (segments : List String) (trace : Trace) :
    (segments.foldl leave trace).insights =
      trace.insights.recordAll (segments.flatMap marks) := by
  induction segments generalizing trace with
  | nil => rfl
  | cons segment rest inductionHypothesis =>
    rw [List.foldl_cons, inductionHypothesis, List.flatMap_cons, Insights.recordAll,
      Insights.recordAll, List.foldl_append]
    rfl

/-- A run succeeds if the segments that write a key can do so, for each key. -/
theorem exists_foldlM_apply
    (settled : ∀ key, ∃ control, settle (writers key segments) (controls.get? key) = .ok control) :
    ∃ updated after, segments.foldlM apply controls trace = .ok updated after := by
  induction segments generalizing controls trace with
  | nil => exact ⟨controls, trace, rfl⟩
  | cons segment rest inductionHypothesis =>
    rw [foldlM_apply_cons]
    obtain ⟨last, here⟩ := settled (target segment)
    rw [writers_cons_target, settle_cons] at here
    cases revised : revise segment (controls.get? (target segment)) with
    | error failure =>
      rw [revised] at here
      cases here
    | ok control =>
      apply inductionHypothesis
      intro key
      -- Under all keys but the one that is written nothing has changed.
      rw [Table.get?_put]
      by_cases same : target segment = key
      · subst same
        rw [revised] at here
        rw [if_pos rfl]
        exact ⟨last, here⟩
      · obtain ⟨other, there⟩ := settled key
        rw [writers_cons_of_ne same] at there
        rw [if_neg (Ne.symm same)]
        exact ⟨other, there⟩

/-- A run succeeds exactly if the segments that write a key can do so, for each key. -/
theorem exists_foldlM_apply_iff :
    (∃ updated after, segments.foldlM apply controls trace = .ok updated after) ↔
      ∀ key, ∃ control, settle (writers key segments) (controls.get? key) = .ok control := by
  constructor
  · rintro ⟨updated, after, applied⟩ key
    exact ⟨updated.get? key, (foldlM_apply_eq_ok.mp applied).settle key⟩
  · exact exists_foldlM_apply

/-- Segments are applied to no controls exactly if the segments that write a key can do so, for
each key. -/
theorem exists_applyAll_iff :
    (∃ updated after, applyAll segments trace = .ok updated after) ↔
      ∀ key, ∃ control, settle (writers key segments) none = .ok control :=
  exists_foldlM_apply_iff

/-- A run fails exactly at the first segment that refuses what the segments before it have set. -/
theorem foldlM_apply_eq_error :
    segments.foldlM apply controls trace = .error failure after ↔
      ∃ before segment rest updated, segments = before ++ segment :: rest ∧
        Applies before controls trace updated after ∧
        revise segment (updated.get? (target segment)) = .error failure := by
  constructor
  · intro failed
    induction segments generalizing controls trace with
    | nil => cases failed
    | cons first others inductionHypothesis =>
      rw [foldlM_apply_cons] at failed
      split at failed
      · next revised =>
        obtain ⟨before, segment, rest, updated, rfl, applies, refused⟩ :=
          inductionHypothesis failed
        exact ⟨first :: before, segment, rest, updated, rfl, .cons revised applies, refused⟩
      · next revised =>
        cases failed
        exact ⟨[], first, others, controls, rfl, .nil, revised⟩
  · rintro ⟨before, segment, rest, updated, rfl, applies, refused⟩
    rw [applies.foldlM_append, foldlM_apply_cons, refused]

end UrlFilter.Control
