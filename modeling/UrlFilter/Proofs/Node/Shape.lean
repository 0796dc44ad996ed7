import UrlFilter.Node.Shape
import UrlFilter.Proofs.Node.Merge

/-!
# Merging keeps the shape

Members that are merged from nodes of the right shape have it too. A comparison is finished only
when the next entry conflicts with it, and that entry stays in the comparison that follows, so
the two overlap whatever is added later.
-/

namespace UrlFilter

namespace Value

/-- The operators of a value that constrains a field. -/
structure Operates (operators : Table Value) : Prop where
  nonempty : operators ≠ []
  distinct : operators.Distinct
  operands : ∀ entry ∈ operators,
    ∃ operator : Operator, entry.1 = operator.tag ∧ operator.Takes entry.2

variable {value left right : Value}

/-- A literal stands for equality with it. -/
theorem IsLiteral.operators_eq (isLiteral : value.IsLiteral) :
    value.operators = [(equalTag, value)] := by
  cases value with
  | null | bool | int | float | text | regex => rfl
  | list | map => exact absurd isLiteral id

/-- A value that constrains uses operators. -/
theorem Constrains.operates (constrains : value.Constrains) : Operates value.operators := by
  cases constrains with
  | literal isLiteral =>
    rw [isLiteral.operators_eq]
    refine ⟨List.cons_ne_nil _ _, by simp [Table.Distinct, Table.keys], ?_⟩
    intro entry isEntry
    rw [List.mem_singleton.mp isEntry]
    exact ⟨.compare .equal, rfl, isLiteral⟩
  | operators nonempty distinct operands => exact ⟨nonempty, distinct, operands⟩

/-- Values that constrain a field and have no common operator constrain it together. -/
theorem Constrains.combined (leftConstrains : left.Constrains)
    (rightConstrains : right.Constrains) (compatible : Merge.conflict left right = false) :
    (Merge.combined left right).Constrains := by
  have leftOperates := leftConstrains.operates
  have rightOperates := rightConstrains.operates
  have both : Table.update left.operators right.operators = left.operators ++ right.operators :=
    Merge.operators_combined compatible rightOperates.distinct
  rw [Merge.combined]
  refine .operators ?_ (Table.distinct_update leftOperates.distinct _) ?_ ?_
  · simp [both, leftOperates.nonempty]
  · intro entry isEntry
    rcases Table.mem_update isEntry with isRight | isLeft
    · exact rightOperates.operands entry isRight
    · exact leftOperates.operands entry isLeft
  · -- Each side has an operator, and these two differ, so one of them is not equality.
    intro _
    obtain ⟨first, _, isFirst⟩ := List.exists_cons_of_ne_nil leftOperates.nonempty
    obtain ⟨second, _, isSecond⟩ := List.exists_cons_of_ne_nil rightOperates.nonempty
    have differ : first.1 ≠ second.1 := by
      intro same
      simp [Merge.conflict, operatorTags, isFirst, isSecond, Table.keys, same] at compatible
    rw [both, isFirst, isSecond]
    by_cases isEqual : first.1 = equalTag
    · exact ⟨second.1, by simp [Table.keys], fun same => differ (isEqual.trans same.symm)⟩
    · exact ⟨first.1, by simp [Table.keys], isEqual⟩

end Value

namespace Node

/-- A tree of the right shape is proper. -/
theorem Shaped.proper {node : Node} (shaped : node.Shaped) : node.Proper := by
  cases shaped with
  | comparison nonempty constraining =>
    refine ⟨by simpa [isEmpty] using nonempty, ?_⟩
    intro entry isEntry
    exact (constraining.entries entry isEntry).2.operates.distinct
  | logical => exact ⟨rfl, trivial⟩

/-- The comparisons of two lists are those of each. -/
@[simp] theorem comparisons_append (left right : List Node) :
    comparisons (left ++ right) = comparisons left ++ comparisons right := by
  simp [comparisons]

/-- A comparison is one. -/
@[simp] theorem comparisons_comparison (fields : Table Value) :
    comparisons [.comparison fields] = [fields] := by
  simp [comparisons]

/-- A joined node is no comparison. -/
@[simp] theorem comparisons_logical (connector : Connector) (children : List Node) :
    comparisons [.logical connector children] = [] := by
  simp [comparisons]

section Constraining

variable {fields front back : Table Value} {field : String} {old value : Value}

/-- One field with a value that constrains is constraining. -/
theorem Constraining.single (isName : IsFieldName field) (constrains : value.Constrains) :
    Constraining [(field, value)] := by
  exact ⟨by simp [Table.Distinct, Table.keys],
    List.forall_mem_singleton.mpr ⟨isName, constrains⟩⟩

/-- A new field may be put at the end. -/
theorem Constraining.snoc (constraining : Constraining fields) (absent : field ∉ fields.keys)
    (isName : IsFieldName field) (constrains : value.Constrains) :
    Constraining (fields ++ [(field, value)]) := by
  constructor
  · have written := Table.put_of_get?_eq_none (Table.get?_eq_none_iff.mpr absent) value
    rw [← written]
    exact Table.distinct_put constraining.distinct field value
  · exact List.forall_mem_append.mpr
      ⟨constraining.entries, List.forall_mem_singleton.mpr ⟨isName, constrains⟩⟩

/-- The value of a field may be replaced. -/
theorem Constraining.replace (constraining : Constraining (front ++ (field, old) :: back))
    (constrains : value.Constrains) : Constraining (front ++ (field, value) :: back) := by
  have all := constraining.entries
  constructor
  · simpa [Table.Distinct, Table.keys] using constraining.distinct
  · rw [List.forall_mem_append, List.forall_mem_cons] at all ⊢
    obtain ⟨inFront, ⟨isName, _⟩, inBack⟩ := all
    exact ⟨inFront, ⟨isName, constrains⟩, inBack⟩

end Constraining

/-- Two comparisons overlap still when the second one gets more fields and more operators. -/
theorem Overlap.grow {earlier left right : Table Value} (overlap : Overlap earlier left)
    (grown : ∀ field value, (field, value) ∈ left →
      ∃ other, (field, other) ∈ right ∧ value.operatorTags ⊆ other.operatorTags) :
    Overlap earlier right := by
  obtain ⟨field, earlierValue, value, tag, isEarlier, isLeft, isEarlierTag, isTag⟩ := overlap
  obtain ⟨other, isRight, kept⟩ := grown field value isLeft
  exact ⟨field, earlierValue, other, tag, isEarlier, isRight, isEarlierTag, kept isTag⟩

/-- The last item of a chain may be replaced by one that stands in the relation too. -/
theorem isChain_grow {α : Type} {relation : α → α → Prop} {front : List α} {last grown : α}
    (chain : (front ++ [last]).IsChain relation)
    (grows : ∀ item, relation item last → relation item grown) :
    (front ++ [grown]).IsChain relation := by
  rw [List.isChain_append] at chain ⊢
  refine ⟨chain.1, .singleton grown, ?_⟩
  intro item isLast next isNext
  cases isNext
  exact grows item (chain.2.2 item isLast last rfl)

end Node

namespace Merge

open Node

/-- The finished members have the right shape, and the growing comparison overlaps with the one
that was finished last. -/
structure Shaped (merge : Merge) : Prop where
  done : ∀ member ∈ merge.done, member.Shaped
  current : Constraining merge.current
  overlapping : (comparisons merge.done ++ [merge.current]).IsChain Overlap

variable {merge after : Merge} {field : String} {value : Value}

/-- Where nothing has been merged, everything has its shape. -/
theorem empty_shaped : empty.Shaped where
  done := by simp [empty]
  current := ⟨Table.distinct_nil, by simp [empty]⟩
  overlapping := .singleton []

/-- A member that has the right shape may be finished. -/
theorem Shaped.finish (shaped : merge.Shaped) {node : Node} (last : node.Shaped) :
    ∀ member ∈ merge.done ++ [node], member.Shaped :=
  List.forall_mem_append.mpr ⟨shaped.done, List.forall_mem_singleton.mpr last⟩

/-- Adding an entry keeps the shape. -/
theorem Adds.shaped (adds : merge.Adds field value after) (shaped : merge.Shaped)
    (isName : IsFieldName field) (constrains : value.Constrains) : after.Shaped := by
  have current := shaped.current
  cases adds with
  | fresh absent =>
    refine ⟨shaped.done, current.snoc absent isName constrains, ?_⟩
    refine isChain_grow shaped.overlapping fun fields overlap => overlap.grow ?_
    intro name other isEntry
    exact ⟨other, List.mem_append_left _ isEntry, fun _ => id⟩
  | @split front back old isCurrent conflicting =>
    have filled : merge.current ≠ [] := by
      simp [isCurrent]
    refine ⟨shaped.finish (.comparison filled current), .single isName constrains, ?_⟩
    obtain ⟨tag, isOld, isNew⟩ := List.any_eq_true.mp conflicting
    have overlap : Overlap merge.current [(field, value)] :=
      ⟨field, old, value, tag, by simp [isCurrent], List.mem_singleton_self _, isOld,
        List.contains_iff_mem.mp isNew⟩
    rw [comparisons_append, comparisons_comparison, List.isChain_append]
    refine ⟨shaped.overlapping, .singleton _, ?_⟩
    intro fields isLast next isNext
    cases isNext
    rw [List.getLast?_concat] at isLast
    cases isLast
    exact overlap
  | @combine front back old isCurrent compatible =>
    have overlapping := shaped.overlapping
    rw [isCurrent] at current overlapping
    have oldConstrains := (current.entries (field, old) (by simp)).2
    refine ⟨shaped.done, current.replace (oldConstrains.combined constrains compatible), ?_⟩
    refine isChain_grow overlapping fun fields overlap => overlap.grow ?_
    intro name other isEntry
    rcases List.mem_append.mp isEntry with inFront | isEntry
    · exact ⟨other, List.mem_append_left _ inFront, fun _ => id⟩
    · rcases List.mem_cons.mp isEntry with isOld | inBack
      · cases isOld
        refine ⟨combined old value, by simp, ?_⟩
        intro tag isTag
        exact Table.mem_keys_update.mpr (.inl isTag)
      · exact ⟨other, List.mem_append_right _ (.tail _ inBack), fun _ => id⟩

/-- Adding fields with values that constrain keeps the shape. -/
theorem addFields_shaped (shaped : merge.Shaped) {fields : Table Value}
    (entries : ∀ entry ∈ fields, IsFieldName entry.1 ∧ entry.2.Constrains) :
    (fields.foldl addField merge).Shaped := by
  refine List.foldlRecOn fields addField shaped ?_
  intro merge shaped entry isEntry
  obtain ⟨isName, constrains⟩ := entries entry isEntry
  exact (addField_adds merge entry).shaped shaped isName constrains

/-- Adding a node keeps the shape. A joined node stands beside the comparisons and changes
nothing about them. -/
theorem addNode_shaped (shaped : merge.Shaped) {node : Node} (nodeShaped : node.Shaped) :
    (merge.addNode node).Shaped := by
  cases node with
  | comparison fields =>
    cases nodeShaped with
    | comparison _ constraining => exact addFields_shaped shaped constraining.entries
  | logical connector children =>
    refine ⟨shaped.finish nodeShaped, shaped.current, ?_⟩
    simpa [addNode] using shaped.overlapping

/-- Adding nodes of the right shape keeps the shape. -/
theorem addNodes_shaped (shaped : merge.Shaped) {terms : List Node}
    (termsShaped : ∀ term ∈ terms, term.Shaped) : (terms.foldl addNode merge).Shaped := by
  refine List.foldlRecOn terms addNode shaped ?_
  intro merge shaped term isTerm
  exact addNode_shaped shaped (termsShaped term isTerm)

end Merge

namespace Node

variable {terms : List Node}

/-- The members of a merged conjunction have the right shape, and its comparisons overlap one
by one. -/
theorem mergedMembers_shaped (shaped : ∀ term ∈ terms, term.Shaped) :
    (∀ member ∈ mergedMembers terms, member.Shaped) ∧
      (comparisons (mergedMembers terms)).IsChain Overlap := by
  have merged : (terms.foldl Merge.addNode Merge.empty).Shaped :=
    Merge.addNodes_shaped Merge.empty_shaped shaped
  have overlapping := merged.overlapping
  unfold mergedMembers Merge.members
  split
  · exact ⟨merged.done, (List.isChain_append.mp overlapping).1⟩
  · next something =>
    refine ⟨merged.finish (.comparison (by simpa using something) merged.current), ?_⟩
    rw [comparisons_append, comparisons_comparison]
    exact overlapping

/-- Nodes of the right shape are joined to a node of the right shape. -/
theorem joinAll_shaped {connector : Connector} {nodes : List Node} (nonempty : nodes ≠ [])
    (each : ∀ node ∈ nodes, node.Shaped)
    (overlapping : connector = .and → (comparisons nodes).IsChain Overlap) :
    (joinAll connector nodes).Shaped := by
  rcases joinAll_cases connector nonempty with ⟨only, rfl, isOnly⟩ | ⟨several, isJoined⟩
  · rw [isOnly]
    exact each only List.mem_cons_self
  · rw [isJoined]
    exact .logical several each overlapping

/-- A merged conjunction of nodes of the right shape has it too. -/
theorem merged_shaped (nonempty : terms ≠ []) (shaped : ∀ term ∈ terms, term.Shaped) :
    (merged terms).Shaped := by
  have something : mergedMembers terms ≠ [] :=
    mergedMembers_ne_nil nonempty fun term isTerm => (shaped term isTerm).proper
  obtain ⟨each, overlapping⟩ := mergedMembers_shaped shaped
  exact joinAll_shaped something each fun _ => overlapping

end Node

end UrlFilter
