import UrlFilter.Expression.Construction
import UrlFilter.Expression.Meaning
import UrlFilter.Proofs.Node.Merge

/-!
# The tree of an expression

The tree can always be built, and it holds under a valuation exactly when the expression
does.
-/

namespace UrlFilter

/-- A literal stands for a plain value. -/
theorem Literal.operators_value (literal : Literal) :
    literal.value.operators = [(equalTag, literal.value)] := by
  cases literal <;> rfl

/-- A comparator has the tag of the constraint that its comparisons state. -/
theorem Comparator.tag_compare (comparator : Comparator) :
    (Operator.compare comparator).tag = comparator.statedTag := by
  cases comparator <;> rfl

/-- The comparator of a lower bound has the tag that a limit on the left states. -/
theorem Limit.tag_above (limit : Limit) :
    (Operator.compare limit.above).tag = limit.statedLeft := by
  cases limit <;> rfl

/-- The comparator of an upper bound has the tag that a limit on the right states. -/
theorem Limit.tag_below (limit : Limit) :
    (Operator.compare limit.below).tag = limit.statedRight := by
  cases limit <;> rfl

namespace Clause

/-- The operator of a membership clause has the tag that the clause states. -/
theorem tag_membershipOperator (inside : Bool) :
    (membershipOperator inside).tag = if inside then "$in" else "$nin" := by
  cases inside <;> rfl

/-- The entries of a presence clause all have its one constraint. -/
theorem mem_presence_fields {present : Bool} {field : String} {others : List String}
    {entry : String × Value} :
    entry ∈ (presence present field others).fields ↔
      entry.1 ∈ field :: others ∧ entry.2 = .map [(Operator.presence.tag, .bool present)] :=
  Table.mem_ofList_map

/-- A clause constrains a field at least. -/
theorem fields_ne_nil (clause : Clause) : clause.fields ≠ [] := by
  cases clause with
  | between | membership => simp [fields]
  | comparison field comparator operand => cases comparator <;> simp [fields]
  | presence present field others =>
    have first : (field, Value.map [(Operator.presence.tag, .bool present)]) ∈
        (presence present field others).fields :=
      mem_presence_fields.mpr ⟨List.mem_cons_self, rfl⟩
    exact List.ne_nil_of_mem first

/-- No clause uses an operator twice on a field. -/
theorem distinct_operators (clause : Clause) :
    ∀ entry ∈ clause.fields, Table.Distinct entry.2.operators := by
  cases clause with
  | between lower lowerLimit field upperLimit upper =>
    intro entry isEntry
    rw [List.mem_singleton.mp isEntry]
    cases lowerLimit <;> cases upperLimit <;>
      simp [Table.Distinct, Table.keys, Value.operators, Limit.above, Limit.below, Operator.tag]
  | presence present field others =>
    intro entry isEntry
    rw [(mem_presence_fields.mp isEntry).2]
    simp [Table.Distinct, Table.keys, Value.operators]
  | membership field inside first others =>
    intro entry isEntry
    rw [List.mem_singleton.mp isEntry]
    simp [Table.Distinct, Table.keys, Value.operators]
  | comparison field comparator operand =>
    intro entry isEntry
    cases comparator with
    | equal =>
      rw [List.mem_singleton.mp isEntry, Literal.operators_value]
      simp [Table.Distinct, Table.keys]
    | notEqual | greater | atLeast | less | atMost | matching =>
      rw [List.mem_singleton.mp isEntry]
      simp [Table.Distinct, Table.keys, Value.operators]

/-- The comparison of a clause is proper. -/
theorem proper (clause : Clause) : (Node.comparison clause.fields).Proper where
  nonempty := by simp [Node.isEmpty, clause.fields_ne_nil]
  wellFormed := clause.distinct_operators

/-- The comparison of a clause states what the clause does. A field that a presence clause
names twice has only one entry, with the same constraint. -/
theorem holds_fields (valuation : Constraint → Bool) (clause : Clause) :
    (Node.comparison clause.fields).holds valuation = clause.holds valuation := by
  cases clause with
  | between =>
    simp [Node.holds, Node.fieldConstraints, fields, holds, Value.operators, Limit.tag_above,
      Limit.tag_below]
  | membership =>
    simp [Node.holds, Node.fieldConstraints, fields, holds, Value.operators,
      tag_membershipOperator]
  | comparison field comparator operand =>
    cases comparator with
    | equal =>
      simp [Node.holds, Node.fieldConstraints, fields, holds, Literal.operators_value, equalTag,
        Comparator.tag_compare, Comparator.statedTag]
    | notEqual | greater | atLeast | less | atMost | matching =>
      simp [Node.holds, Node.fieldConstraints, fields, holds, Value.operators,
        Comparator.tag_compare]
  | presence present field others =>
    have single : ∀ entry ∈ (presence present field others).fields,
        entry.2.operators = [(Operator.presence.tag, .bool present)] := by
      intro entry isEntry
      rw [(mem_presence_fields.mp isEntry).2]
      rfl
    rw [Bool.eq_iff_iff, Node.holds, holds, Node.fieldConstraints, List.all_flatMap,
      List.all_eq_true, List.all_eq_true]
    constructor
    · intro entries name isName
      have isEntry : (name, Value.map [(Operator.presence.tag, .bool present)]) ∈
          (presence present field others).fields := mem_presence_fields.mpr ⟨isName, rfl⟩
      have entryHolds := entries _ isEntry
      simpa [Value.operators, Operator.tag] using entryHolds
    · intro names entry isEntry
      have nameHolds := names entry.1 (mem_presence_fields.mp isEntry).1
      simpa [single entry isEntry, Operator.tag] using nameHolds

end Clause

theorem Conjunction.toNodes_ne_nil (conjunction : Conjunction) : conjunction.toNodes ≠ [] := by
  cases conjunction <;> exact List.cons_ne_nil _ _

theorem Disjunction.toNodes_ne_nil (disjunction : Disjunction) : disjunction.toNodes ≠ [] := by
  cases disjunction <;> exact List.cons_ne_nil _ _

mutual

/-- The tree of a term is proper. -/
theorem Term.toNode_proper : (term : Term) → term.toNode.Proper
  | .clause clause => clause.proper
  | .group inside => Node.joinAll_proper .or inside.toNodes_ne_nil inside.toNodes_proper

theorem Conjunction.toNodes_proper :
    (conjunction : Conjunction) → ∀ node ∈ conjunction.toNodes, node.Proper
  | .single term => by
    intro node isNode
    rw [List.mem_singleton.mp isNode]
    exact term.toNode_proper
  | .and term rest => by
    intro node isNode
    rcases List.mem_cons.mp isNode with isFirst | later
    · rw [isFirst]
      exact term.toNode_proper
    · exact rest.toNodes_proper node later

theorem Disjunction.toNodes_proper :
    (disjunction : Disjunction) → ∀ node ∈ disjunction.toNodes, node.Proper
  | .single conjunction => by
    intro node isNode
    rw [List.mem_singleton.mp isNode]
    exact Node.merged_proper conjunction.toNodes_ne_nil conjunction.toNodes_proper
  | .or conjunction rest => by
    intro node isNode
    rcases List.mem_cons.mp isNode with isFirst | later
    · rw [isFirst]
      exact Node.merged_proper conjunction.toNodes_ne_nil conjunction.toNodes_proper
    · exact rest.toNodes_proper node later

end

mutual

/-- The tree of a term holds exactly when the term does. -/
theorem Term.holds_toNode (valuation : Constraint → Bool) :
    (term : Term) → term.toNode.holds valuation = term.holds valuation
  | .clause clause => clause.holds_fields valuation
  | .group inside => by
    rw [Term.toNode, Node.holds_joinAll_or valuation inside.toNodes_ne_nil, Term.holds]
    exact inside.anyHolds_toNodes valuation

/-- The trees of all terms hold exactly when the conjunction does. -/
theorem Conjunction.allHold_toNodes (valuation : Constraint → Bool) :
    (conjunction : Conjunction) →
      Node.allHold valuation conjunction.toNodes = conjunction.holds valuation
  | .single term => by
    rw [Conjunction.toNodes, Node.allHold, Node.allHold, Bool.and_true, Conjunction.holds]
    exact term.holds_toNode valuation
  | .and term rest => by
    rw [Conjunction.toNodes, Node.allHold, Conjunction.holds, term.holds_toNode valuation,
      rest.allHold_toNodes valuation]

/-- The tree of some conjunction holds exactly when the disjunction does. -/
theorem Disjunction.anyHolds_toNodes (valuation : Constraint → Bool) :
    (disjunction : Disjunction) →
      Node.anyHolds valuation disjunction.toNodes = disjunction.holds valuation
  | .single conjunction => by
    have merged := Node.holds_merged valuation
      fun node isNode => (conjunction.toNodes_proper node isNode).wellFormed
    rw [Disjunction.toNodes, Node.anyHolds, Node.anyHolds, Bool.or_false, Disjunction.holds,
      merged]
    exact conjunction.allHold_toNodes valuation
  | .or conjunction rest => by
    have merged := Node.holds_merged valuation
      fun node isNode => (conjunction.toNodes_proper node isNode).wellFormed
    rw [Disjunction.toNodes, Node.anyHolds, Disjunction.holds, merged,
      conjunction.allHold_toNodes valuation, rest.anyHolds_toNodes valuation]

end

/-- The tree of an expression holds exactly when the expression does. -/
theorem Disjunction.holds_toNode (valuation : Constraint → Bool) (disjunction : Disjunction) :
    disjunction.toNode.holds valuation = disjunction.holds valuation := by
  rw [Disjunction.toNode, Node.holds_joinAll_or valuation disjunction.toNodes_ne_nil]
  exact disjunction.anyHolds_toNodes valuation

/-- Several proper terms are conjoined by merging them. -/
theorem Node.conjoin_eq_ok {terms : List Node} (nonempty : terms ≠ [])
    (proper : ∀ term ∈ terms, term.Proper) : Node.conjoin terms = .ok (Node.merged terms) := by
  rw [Node.conjoin, Node.merge_eq_ok nonempty proper]
  rfl

/-- Several nodes are disjoined by joining them. -/
theorem Node.disjoin_eq_ok {nodes : List Node} (nonempty : nodes ≠ []) :
    Node.disjoin nodes = .ok (Node.joinAll .or nodes) := by
  match nodes with
  | [] => exact absurd rfl nonempty
  | [only] => rfl
  | first :: second :: others => rfl

mutual

/-- The tree of a term can be built. -/
theorem Term.build_eq_ok : (term : Term) → term.build = .ok term.toNode
  | .clause _ => rfl
  | .group inside => by
    rw [Term.build, inside.buildEach_eq_ok]
    exact Node.disjoin_eq_ok inside.toNodes_ne_nil

/-- The trees of the terms of a conjunction can be built. -/
theorem Conjunction.buildEach_eq_ok :
    (conjunction : Conjunction) → conjunction.buildEach = .ok conjunction.toNodes
  | .single term => by
    rw [Conjunction.buildEach, term.build_eq_ok]
    rfl
  | .and term rest => by
    rw [Conjunction.buildEach, term.build_eq_ok, rest.buildEach_eq_ok]
    rfl

/-- The trees of the conjunctions of a disjunction can be built. -/
theorem Disjunction.buildEach_eq_ok :
    (disjunction : Disjunction) → disjunction.buildEach = .ok disjunction.toNodes
  | .single conjunction => by
    have conjoined := Node.conjoin_eq_ok conjunction.toNodes_ne_nil conjunction.toNodes_proper
    rw [Disjunction.buildEach, conjunction.buildEach_eq_ok]
    change (do return [← Node.conjoin conjunction.toNodes]) = _
    rw [conjoined]
    rfl
  | .or conjunction rest => by
    have conjoined := Node.conjoin_eq_ok conjunction.toNodes_ne_nil conjunction.toNodes_proper
    rw [Disjunction.buildEach, conjunction.buildEach_eq_ok, rest.buildEach_eq_ok]
    change (do return (← Node.conjoin conjunction.toNodes) :: rest.toNodes) = _
    rw [conjoined]
    rfl

end

/-- The tree of an expression can be built. -/
theorem Disjunction.build_eq_ok (disjunction : Disjunction) :
    disjunction.build = .ok disjunction.toNode := by
  rw [Disjunction.build, disjunction.buildEach_eq_ok]
  exact Node.disjoin_eq_ok disjunction.toNodes_ne_nil

end UrlFilter
