import UrlFilter.Proofs.Node.Cut

/-!
# Merging in any order

Comparisons that do not overlap are merged into the same comparison in every order. The order of
its fields and of the operators on a field is all that the order of the terms decides: whether a
field keeps a plain value depends only on the number of terms that name it.
-/

namespace UrlFilter

/-- The two values of a field are the same, or they are maps from the same operators to the same
operands. -/
inductive Value.Reordered : Value → Value → Prop where
  | refl (value : Value) : Value.Reordered value value
  | operators {left right : Table Value} (perm : left.Perm right) :
      Value.Reordered (.map left) (.map right)

/-- The two comparisons have the same fields, and each field has the same value in both, without
regard to the order of fields and operators. -/
structure Node.Reordered (left right : Table Value) : Prop where
  keys : left.keys.Perm right.keys
  values : ∀ field, Option.Rel Value.Reordered (left.get? field) (right.get? field)

namespace Merge

open Node

section Values

variable {values others : List Value} {value : Value}

/-- No two of the values have a common operator, and none has an operator twice. -/
structure Apart (values : List Value) : Prop where
  distinct : ∀ value ∈ values, Table.Distinct value.operators
  compatible : values.Pairwise fun left right => conflict left right = false

theorem conflict_symm {left right : Value} (compatible : conflict left right = false) :
    conflict right left = false := by
  rw [← Bool.not_eq_true, conflict_eq_true_iff] at compatible ⊢
  rintro ⟨tag, isRight, isLeft⟩
  exact compatible ⟨tag, isLeft, isRight⟩

theorem Apart.perm (apart : Apart values) (perm : values.Perm others) : Apart others where
  distinct := fun value isValue => apart.distinct value (perm.mem_iff.mpr isValue)
  compatible := apart.compatible.perm perm conflict_symm

/-- The operators of values that are apart stand side by side in the value that is combined from
them. -/
theorem operators_combinedAll (apart : Apart values) (isValue : combinedAll values = some value) :
    value.operators = values.flatMap Value.operators := by
  induction values using List.reverseRecOn generalizing value with
  | nil => cases isValue
  | append_singleton values last inductionHypothesis =>
    obtain ⟨valuesDistinct, lastDistinct⟩ := List.forall_mem_append.mp apart.distinct
    obtain ⟨valuesCompatible, _, calm⟩ := List.pairwise_append.mp apart.compatible
    rw [combinedAll_concat] at isValue
    cases before : combinedAll values with
    | none =>
      rw [before] at isValue
      cases isValue
      cases values with
      | nil => simp
      | cons => cases before
    | some present =>
      rw [before] at isValue
      cases isValue
      have compatible : conflict present last = false := by
        rw [← Bool.not_eq_true, conflict_eq_true_iff]
        rintro ⟨tag, isPresentTag, isLastTag⟩
        obtain ⟨part, isPart, isPartTag⟩ := (mem_operatorTags_combinedAll before).mp isPresentTag
        have none := calm part isPart last List.mem_cons_self
        rw [← Bool.not_eq_true, conflict_eq_true_iff] at none
        exact none ⟨tag, isPartTag, isLastTag⟩
      rw [operators_combined compatible (lastDistinct last List.mem_cons_self),
        inductionHypothesis ⟨valuesDistinct, valuesCompatible⟩ before, List.flatMap_append,
        List.flatMap_singleton]

/-- Two or more values are combined into a map. -/
theorem combinedAll_of_several (several : 2 ≤ values.length) :
    ∃ entries, combinedAll values = some (.map entries) := by
  rcases List.eq_nil_or_concat values with rfl | ⟨front, last, rfl⟩
  · cases several
  · rw [List.concat_eq_append, combinedAll_concat]
    cases front with
    | nil => simp at several
    | cons first others => exact ⟨_, rfl⟩

/-- Values that are apart are combined to the same value in every order. -/
theorem combinedAll_reordered (apart : Apart values) (perm : values.Perm others) :
    Option.Rel Value.Reordered (combinedAll values) (combinedAll others) := by
  match values, apart, perm with
  | [], _, perm =>
    rw [← perm.nil_eq]
    exact .none
  | [only], _, perm =>
    rw [← List.singleton_perm.mp perm]
    exact .some (.refl only)
  | first :: second :: later, apart, perm =>
    obtain ⟨left, isLeft⟩ : ∃ left, combinedAll (first :: second :: later) = some (.map left) :=
      combinedAll_of_several (by simp)
    obtain ⟨right, isRight⟩ : ∃ right, combinedAll others = some (.map right) :=
      combinedAll_of_several (by simp [← perm.length_eq])
    have leftOperators : left = _ := operators_combinedAll apart isLeft
    have rightOperators : right = _ := operators_combinedAll (apart.perm perm) isRight
    rw [isLeft, isRight]
    refine .some (.operators ?_)
    rw [leftOperators, rightOperators]
    exact perm.flatMap_right _

end Values

section Gather

variable {block other : List (String × Value)}

theorem distinct_gather (block : List (String × Value)) : (gather block).Distinct := by
  refine List.foldlRecOn block place Table.distinct_nil ?_
  intro fields distinct entry _
  exact Table.distinct_put distinct entry.1 _

/-- A comparison has the fields of the entries it is gathered from. -/
theorem mem_keys_gather {field : String} :
    field ∈ (gather block).keys ↔ ∃ entry ∈ block, entry.1 = field := by
  have absent : combinedAll (valuesOf field block) = none ↔ valuesOf field block = [] := by
    cases valuesOf field block <;> simp [combinedAll]
  rw [← not_iff_not, ← Table.get?_eq_none_iff, get?_gather, absent,
    List.eq_nil_iff_forall_not_mem]
  simp only [mem_valuesOf, not_exists, not_and]
  constructor
  · rintro unnamed ⟨_, value⟩ isEntry rfl
    exact unnamed value isEntry
  · intro unnamed value isEntry
    exact unnamed _ isEntry rfl

/-- The values of a field are apart where no two entries clash. -/
theorem apart_valuesOf (distinct : ∀ entry ∈ block, Table.Distinct entry.2.operators)
    (compatible : Compatible block) (field : String) : Apart (valuesOf field block) where
  distinct := by
    intro value isValue
    exact distinct (field, value) (mem_valuesOf.mp isValue)
  compatible := by
    rw [valuesOf, List.pairwise_map, List.pairwise_filter]
    refine compatible.imp ?_
    intro first second calm isFirst isSecond
    have same : first.1 = second.1 :=
      (of_decide_eq_true isFirst).trans (of_decide_eq_true isSecond).symm
    rw [← Bool.not_eq_true, conflict_eq_true_iff]
    exact fun common => calm ⟨same, common⟩

/-- Entries that do not clash are gathered to the same comparison in every order. -/
theorem gather_reordered (distinct : ∀ entry ∈ block, Table.Distinct entry.2.operators)
    (compatible : Compatible block) (perm : block.Perm other) :
    Reordered (gather block) (gather other) := by
  constructor
  · refine (List.perm_ext_iff_of_nodup (distinct_gather block) (distinct_gather other)).mpr ?_
    intro field
    rw [mem_keys_gather, mem_keys_gather]
    simp only [perm.mem_iff]
  · intro field
    rw [get?_gather, get?_gather]
    exact combinedAll_reordered (apart_valuesOf distinct compatible field)
      ((perm.filter _).map _)

end Gather

end Merge

namespace Value

/-- Two maps of the same size are the same if each entry of the first has the same value in the
second. -/
theorem same_map {left right : Table Value} (size : left.length = right.length)
    (entries : ∀ entry ∈ left, ∃ value, right.get? entry.1 = some value ∧
      entry.2.same value = true) :
    (Value.map left).same (.map right) = true := by
  have each : sameEntries left right = true := by
    clear size
    induction left with
    | nil => rfl
    | cons entry rest inductionHypothesis =>
      obtain ⟨⟨value, isValue, same⟩, further⟩ := List.forall_mem_cons.mp entries
      rw [Table.get?] at isValue
      simp only [sameEntries, isValue, same, inductionHypothesis further, Bool.and_self]
  simp [same, size, each]

/-- Values of the same operators are the same where each operand is the same as itself. -/
theorem Reordered.same {left right : Value} (reordered : left.Reordered right)
    (distinct : Table.Distinct right.operators)
    (steady : ∀ entry ∈ left.operators, entry.2.same entry.2 = true) :
    left.same right = true := by
  have ofMaps : ∀ {left right : Table Value}, left.Perm right → right.Distinct →
      (∀ entry ∈ left, entry.2.same entry.2 = true) →
      (Value.map left).same (.map right) = true := by
    intro left right perm distinct steady
    refine same_map perm.length_eq ?_
    intro entry isEntry
    exact ⟨entry.2, (Table.mem_iff_get?_eq_some distinct).mp (perm.mem_iff.mp isEntry),
      steady entry isEntry⟩
  cases reordered with
  | operators perm => exact ofMaps perm distinct steady
  | refl =>
    cases left with
    | map entries => exact ofMaps (.refl entries) distinct steady
    | null | bool | int | float | text | regex | list =>
      exact steady (equalTag, _) (List.mem_singleton_self _)

end Value

namespace Node

variable {left right : Table Value}

/-- Each field of a comparison, and each operator on a field, occurs once. -/
structure Regular (fields : Table Value) : Prop where
  distinct : fields.Distinct
  wellFormed : (Node.comparison fields).WellFormed

instance (fields : Table Value) : Decidable (Regular fields) :=
  decidable_of_iff
    (fields.Distinct ∧ ∀ entry ∈ fields, Table.Distinct entry.2.operators)
    ⟨fun both => ⟨both.1, both.2⟩, fun regular => ⟨regular.distinct, regular.wellFormed⟩⟩

/-- Each operand is the same as itself, as is every value without an undefined number in it. -/
def Steady (fields : Table Value) : Prop :=
  ∀ constraint ∈ fieldConstraints fields, constraint.value.same constraint.value = true

instance (fields : Table Value) : Decidable (Steady fields) :=
  inferInstanceAs (Decidable (∀ constraint ∈ fieldConstraints fields, _))

/-- Comparisons of the same fields and operators are the same where each operand is the same as
itself. -/
theorem Reordered.same (reordered : Reordered left right) (leftRegular : Regular left)
    (rightRegular : Regular right) (steady : Steady left) :
    (Node.comparison left).same (.comparison right) = true := by
  rw [Node.same]
  refine Value.same_map (by simpa [Table.keys] using reordered.keys.length_eq) ?_
  rintro ⟨field, value⟩ isEntry
  have related := reordered.values field
  rw [(Table.mem_iff_get?_eq_some leftRegular.distinct).mp isEntry] at related
  obtain ⟨other, isOther⟩ : ∃ other, right.get? field = some other := by
    cases found : right.get? field with
    | some other => exact ⟨other, rfl⟩
    | none =>
      rw [found] at related
      cases related
  rw [isOther] at related
  cases related with
  | some valueReordered =>
    have isOtherEntry := (Table.mem_iff_get?_eq_some rightRegular.distinct).mpr isOther
    refine ⟨other, isOther, valueReordered.same (rightRegular.wellFormed _ isOtherEntry) ?_⟩
    intro operand isOperand
    refine steady ⟨field, operand.1, operand.2⟩ (List.mem_flatMap.mpr ⟨_, isEntry, ?_⟩)
    exact List.mem_map.mpr ⟨operand, isOperand, rfl⟩

/-- Comparisons overlap if an entry of one clashes with an entry of the other. -/
theorem overlap_iff : Overlap left right ↔ ∃ entry ∈ left, ∃ other ∈ right, Clash entry other := by
  constructor
  · rintro ⟨field, leftValue, rightValue, tag, isLeft, isRight, isLeftTag, isRightTag⟩
    exact ⟨_, isLeft, _, isRight, rfl, tag, isLeftTag, isRightTag⟩
  · rintro ⟨⟨field, leftValue⟩, isLeft, ⟨_, rightValue⟩, isRight, rfl, tag, isLeftTag, isRightTag⟩
    exact ⟨field, leftValue, rightValue, tag, isLeft, isRight, isLeftTag, isRightTag⟩

instance (left right : Table Value) : Decidable (Overlap left right) :=
  decidable_of_iff _ overlap_iff.symm

/-- The entries of comparisons are all their entries, in order. -/
theorem entries_map_comparison (terms : List (Table Value)) :
    entries (terms.map .comparison) = terms.flatten := by
  simp [entries, comparisons, List.filterMap_map]

section Terms

variable {terms others : List (Table Value)}

/-- No two entries of comparisons clash if no two of the comparisons overlap. -/
theorem compatible_flatten (regular : ∀ fields ∈ terms, Regular fields)
    (apart : terms.Pairwise fun left right => ¬ Overlap left right) :
    Compatible terms.flatten := by
  rw [Compatible, List.pairwise_flatten]
  constructor
  · -- The entries of one comparison are about different fields.
    intro fields isTerm
    have distinct : fields.Pairwise fun first second => first.1 ≠ second.1 :=
      List.pairwise_map.mp (regular fields isTerm).distinct
    exact distinct.imp fun differ clash => differ clash.1
  · refine apart.imp ?_
    intro left right disjoint entry isEntry other isOther clash
    exact disjoint (overlap_iff.mpr ⟨entry, isEntry, other, isOther, clash⟩)

/-- Clashing does not depend on the order of the entries. -/
theorem Compatible.perm {block other : List (String × Value)} (compatible : Compatible block)
    (perm : block.Perm other) : Compatible other := by
  refine List.Pairwise.perm compatible perm ?_
  rintro first second calm ⟨same, tag, isSecond, isFirst⟩
  exact calm ⟨same.symm, tag, isFirst, isSecond⟩

/-- Comparisons without clashing entries are merged into one. -/
theorem mergedMembers_of_flatten (filled : ∃ fields ∈ terms, fields ≠ [])
    (compatible : Compatible terms.flatten) :
    mergedMembers (terms.map .comparison) = [.comparison (Merge.gather terms.flatten)] := by
  have plain : ∀ term ∈ terms.map Node.comparison, term.isComparison = true := by
    intro term isTerm
    obtain ⟨fields, _, rfl⟩ := List.mem_map.mp isTerm
    rfl
  have something : terms.flatten ≠ [] := by
    obtain ⟨fields, isTerm, nonempty⟩ := filled
    intro nothing
    exact nonempty (List.flatten_eq_nil_iff.mp nothing fields isTerm)
  rw [← entries_map_comparison] at something compatible ⊢
  exact mergedMembers_of_compatible plain something compatible

/-- The comparison that regular ones are merged into is regular and has their constraints. -/
theorem gather_of_mergedMembers (regular : ∀ fields ∈ terms, Regular fields)
    (single : mergedMembers (terms.map .comparison) = [.comparison (Merge.gather terms.flatten)]) :
    Regular (Merge.gather terms.flatten) ∧
      (fieldConstraints (Merge.gather terms.flatten)).Perm (terms.flatMap fieldConstraints) := by
  have wellFormed : ∀ term ∈ terms.map Node.comparison, term.WellFormed := by
    intro term isTerm
    obtain ⟨fields, isFields, rfl⟩ := List.mem_map.mp isTerm
    exact (regular fields isFields).wellFormed
  have proper := mergedMembers_proper wellFormed
  have constraints := mergedMembers_constraints wellFormed
  rw [single] at proper constraints
  refine ⟨⟨Merge.distinct_gather _, (proper _ List.mem_cons_self).wellFormed⟩, ?_⟩
  rw [comparisonConstraints_comparison] at constraints
  refine constraints.trans (.of_eq ?_)
  rw [comparisonConstraints, List.flatMap_map]

/-- Comparisons that do not overlap are merged into a single one, and in every order of them into
the same one, up to the order of its fields and operators: the operands are identical. So the two
results are the same wherever an operand is the same as itself, which an undefined number is
not. -/
theorem merge_perm (regular : ∀ fields ∈ terms, Regular fields)
    (filled : ∃ fields ∈ terms, fields ≠ [])
    (apart : terms.Pairwise fun left right => ¬ Overlap left right) (perm : terms.Perm others) :
    ∃ left right, merge (terms.map .comparison) = .ok (.comparison left) ∧
      merge (others.map .comparison) = .ok (.comparison right) ∧ Reordered left right ∧
      ((∀ fields ∈ terms, Steady fields) →
        (Node.comparison left).same (.comparison right) = true) := by
  have compatible : Compatible terms.flatten := compatible_flatten regular apart
  have othersRegular : ∀ fields ∈ others, Regular fields :=
    fun fields isTerm => regular fields (perm.mem_iff.mpr isTerm)
  have othersFilled : ∃ fields ∈ others, fields ≠ [] := by
    obtain ⟨fields, isTerm, nonempty⟩ := filled
    exact ⟨fields, perm.mem_iff.mp isTerm, nonempty⟩
  have single := mergedMembers_of_flatten filled compatible
  have othersSingle := mergedMembers_of_flatten othersFilled (compatible.perm perm.flatten)
  obtain ⟨leftRegular, constraints⟩ := gather_of_mergedMembers regular single
  obtain ⟨rightRegular, _⟩ := gather_of_mergedMembers othersRegular othersSingle
  have operatorsDistinct : ∀ entry ∈ terms.flatten, Table.Distinct entry.2.operators := by
    intro entry isEntry
    obtain ⟨fields, isTerm, isEntry⟩ := List.mem_flatten.mp isEntry
    exact (regular fields isTerm).wellFormed entry isEntry
  have reordered := Merge.gather_reordered operatorsDistinct compatible perm.flatten
  refine ⟨_, _, merge_eq_ok_iff.mpr ?_, merge_eq_ok_iff.mpr ?_, reordered, ?_⟩
  · rw [single]
    exact ⟨List.cons_ne_nil _ _, rfl⟩
  · rw [othersSingle]
    exact ⟨List.cons_ne_nil _ _, rfl⟩
  · intro steady
    refine reordered.same leftRegular rightRegular ?_
    intro constraint isConstraint
    obtain ⟨fields, isTerm, isOwn⟩ := List.mem_flatMap.mp (constraints.mem_iff.mp isConstraint)
    exact steady fields isTerm constraint isOwn

end Terms

/-- A field with a plain value between two of its operator maps, an empty operator map, a
comparison of no fields and fields that one term alone names. -/
def rangeTerms : List (Table Value) :=
  [[("p", .map [("$gt", .int 1)]), ("q", .text "x")], [], [("p", .int 5), ("r", .map [])],
    [("s", .list [.null]), ("p", .map [("$lt", .int 9), ("$ne", .int 3)])]]

theorem merge_perm_rangeTerms :
    merge (rangeTerms.map .comparison) = .ok (.comparison
      [("p", .map [("$gt", .int 1), ("$eq", .int 5), ("$lt", .int 9), ("$ne", .int 3)]),
        ("q", .text "x"), ("r", .map []), ("s", .list [.null])]) ∧
    merge (rangeTerms.reverse.map .comparison) = .ok (.comparison
      [("s", .list [.null]),
        ("p", .map [("$lt", .int 9), ("$ne", .int 3), ("$eq", .int 5), ("$gt", .int 1)]),
        ("r", .map []), ("q", .text "x")]) ∧
    (Node.comparison
      [("p", .map [("$gt", .int 1), ("$eq", .int 5), ("$lt", .int 9), ("$ne", .int 3)]),
        ("q", .text "x"), ("r", .map []), ("s", .list [.null])]).same
      (.comparison
        [("s", .list [.null]),
          ("p", .map [("$lt", .int 9), ("$ne", .int 3), ("$eq", .int 5), ("$gt", .int 1)]),
          ("r", .map []), ("q", .text "x")]) = true := by
  have regular : ∀ fields ∈ rangeTerms, Regular fields := by decide
  have filled : ∃ fields ∈ rangeTerms, fields ≠ [] := by simp [rangeTerms]
  have apart : rangeTerms.Pairwise fun left right => ¬ Overlap left right := by decide
  have steady : ∀ fields ∈ rangeTerms, Steady fields := by decide
  obtain ⟨left, right, isLeft, isRight, _, same⟩ :=
    merge_perm regular filled apart (List.reverse_perm rangeTerms).symm
  have leftMerged : merge (rangeTerms.map .comparison) = .ok (.comparison _) := rfl
  have rightMerged : merge (rangeTerms.reverse.map .comparison) = .ok (.comparison _) := rfl
  refine ⟨leftMerged, rightMerged, ?_⟩
  rw [leftMerged] at isLeft
  rw [rightMerged] at isRight
  cases isLeft
  cases isRight
  exact same steady

end Node

end UrlFilter
