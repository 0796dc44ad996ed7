import UrlFilter.Proofs.Expression.Source
import UrlFilter.Proofs.Filter

/-!
# What a filter records

The marks of an expression are the fields and operator tags of its tree: a clause records what
its comparison states, and no merge loses or invents a constraint. So after a filter has been
read, the insights hold what they held before and what the tree uses, and nothing else.
-/

namespace UrlFilter

/-- The field and the operator tag of a constraint. -/
def Constraint.mark (constraint : Constraint) : Mark :=
  (constraint.field, constraint.tag)

/-- The fields of a tree and the operator tags used on them. -/
def Node.marks (node : Node) : List Mark :=
  node.constraints.map Constraint.mark

/-- The fields of several trees and the operator tags used on them. -/
def Node.childMarks (nodes : List Node) : List Mark :=
  (childConstraints nodes).map Constraint.mark

namespace Node

variable {mark : Mark}

/-- A tree uses a tag on a field if one of its constraints does. -/
theorem mem_marks_iff {node : Node} {field tag : String} :
    (field, tag) ∈ node.marks ↔
      ∃ constraint ∈ node.constraints, constraint.field = field ∧ constraint.tag = tag := by
  simp only [marks, Constraint.mark, List.mem_map, Prod.mk.injEq]

/-- A tree uses a field if one of its constraints does. -/
theorem mem_marks_fields_iff {node : Node} {field : String} :
    field ∈ node.marks.map (·.1) ↔ ∃ constraint ∈ node.constraints, constraint.field = field := by
  simp only [marks, List.map_map, List.mem_map, Function.comp_apply, Constraint.mark]

/-- The marks of several trees are those of the first one and of the others. -/
theorem mem_childMarks_cons {node : Node} {rest : List Node} :
    mark ∈ childMarks (node :: rest) ↔ mark ∈ node.marks ∨ mark ∈ childMarks rest := by
  simp only [childMarks, childConstraints, List.map_append, List.mem_append, marks]

/-- The marks of one tree are its own. -/
theorem mem_childMarks_singleton {node : Node} :
    mark ∈ childMarks [node] ↔ mark ∈ node.marks := by
  rw [mem_childMarks_cons]
  exact or_iff_left List.not_mem_nil

/-- A node that is joined from several uses what they use. -/
theorem marks_joinAll (connector : Connector) (nodes : List Node) :
    (joinAll connector nodes).marks = childMarks nodes := by
  rw [marks, constraints_joinAll, childMarks]

/-- A merged conjunction uses what its terms use. -/
theorem mem_marks_merged {terms : List Node} (wellFormed : ∀ term ∈ terms, term.WellFormed) :
    mark ∈ (merged terms).marks ↔ mark ∈ childMarks terms :=
  ((constraints_merged wellFormed).map Constraint.mark).mem_iff

end Node

/-- A clause records what its comparison states. A field that a presence clause names twice is
recorded twice and has one entry. -/
theorem Clause.mem_marks_iff {mark : Mark} (clause : Clause) :
    mark ∈ clause.marks ↔ mark ∈ (Node.comparison clause.fields).marks := by
  cases clause with
  | between | membership =>
    simp [marks, fields, Node.marks, Node.constraints, Node.fieldConstraints, Value.operators,
      Constraint.mark]
  | comparison field comparator operand =>
    cases comparator with
    | equal =>
      simp [marks, fields, Node.marks, Node.constraints, Node.fieldConstraints,
        Literal.operators_value, equalTag, Constraint.mark]
    | notEqual | greater | atLeast | less | atMost | matching =>
      simp [marks, fields, Node.marks, Node.constraints, Node.fieldConstraints, Value.operators,
        Constraint.mark]
  | presence present field others =>
    simp only [marks, Node.marks, Node.constraints, Node.fieldConstraints, List.map_flatMap,
      List.mem_map, List.mem_flatMap]
    constructor
    · rintro ⟨name, isName, rfl⟩
      refine ⟨(name, .map [(Operator.presence.tag, .bool present)]),
        mem_presence_fields.mpr ⟨isName, rfl⟩, ?_⟩
      simp [Value.operators, Constraint.mark]
    · rintro ⟨entry, isEntry, isMark⟩
      obtain ⟨isName, isValue⟩ := mem_presence_fields.mp isEntry
      refine ⟨entry.1, isName, ?_⟩
      simpa [isValue, Value.operators, Constraint.mark, eq_comm] using isMark

mutual

/-- A term records what its tree uses. -/
theorem Term.mem_marks_iff {mark : Mark} :
    (term : Term) → (mark ∈ term.marks ↔ mark ∈ term.toNode.marks)
  | .clause clause => clause.mem_marks_iff
  | .group inside => by
    rw [Term.marks, Term.toNode, Node.marks_joinAll]
    exact inside.mem_childMarks_iff

/-- A conjunction records what the trees of its terms use. -/
theorem Conjunction.mem_childMarks_iff {mark : Mark} :
    (conjunction : Conjunction) →
      (mark ∈ conjunction.marks ↔ mark ∈ Node.childMarks conjunction.toNodes)
  | .single term => by
    rw [Conjunction.marks, Conjunction.toNodes, Node.mem_childMarks_singleton]
    exact term.mem_marks_iff
  | .and term rest => by
    rw [Conjunction.marks, Conjunction.toNodes, Node.mem_childMarks_cons, List.mem_append,
      term.mem_marks_iff, rest.mem_childMarks_iff]

/-- A disjunction records what the trees of its conjunctions use. -/
theorem Disjunction.mem_childMarks_iff {mark : Mark} :
    (disjunction : Disjunction) →
      (mark ∈ disjunction.marks ↔ mark ∈ Node.childMarks disjunction.toNodes)
  | .single conjunction => by
    have merged := @Node.mem_marks_merged mark conjunction.toNodes
      fun node isNode => (conjunction.toNodes_proper node isNode).wellFormed
    rw [Disjunction.marks, Disjunction.toNodes, Node.mem_childMarks_singleton, merged]
    exact conjunction.mem_childMarks_iff
  | .or conjunction rest => by
    have merged := @Node.mem_marks_merged mark conjunction.toNodes
      fun node isNode => (conjunction.toNodes_proper node isNode).wellFormed
    rw [Disjunction.marks, Disjunction.toNodes, Node.mem_childMarks_cons, List.mem_append,
      merged, conjunction.mem_childMarks_iff, rest.mem_childMarks_iff]

end

/-- An expression records what its tree uses. -/
theorem Disjunction.mem_marks_iff {mark : Mark} (disjunction : Disjunction) :
    mark ∈ disjunction.marks ↔ mark ∈ disjunction.toNode.marks := by
  rw [Disjunction.toNode, Node.marks_joinAll]
  exact disjunction.mem_childMarks_iff

variable {depthLimit : Int} {text : String} {insights after : Insights} {filter : Filter}

/-- Insights are exact: after a text has been read as a filter, a tag is recorded for a field if
it was before or if the tree constrains the field by the operator with that tag, and only
then; and nothing is recorded for any other field. -/
theorem parseFilter_records (accepted : parseFilter depthLimit text insights = .ok filter after) :
    (∀ field tag, after.Records field tag ↔
      insights.Records field tag ∨
        ∃ constraint ∈ filter.node.constraints,
          constraint.field = field ∧ constraint.tag = tag) ∧
    ∀ field, field ∈ after.fields ↔
      field ∈ insights.fields ∨
        ∃ constraint ∈ filter.node.constraints, constraint.field = field := by
  obtain ⟨_, _, _, _, _, recorded⟩ := parseFilter_eq_ok.mp accepted
  have sameMarks : ∀ mark, mark ∈ filter.expression.marks ↔ mark ∈ filter.node.marks :=
    fun _ => filter.expression.mem_marks_iff
  constructor
  · intro field tag
    rw [recorded, Insights.records_recordAll, sameMarks, Node.mem_marks_iff]
  · intro field
    rw [recorded, Insights.mem_fields_recordAll, ← Node.mem_marks_fields_iff]
    simp only [List.mem_map, sameMarks]

/-- A field is named twice in a presence clause and constrained again in a group. -/
def presenceBesideGroup : Disjunction :=
  .single (.and (.clause (.presence true "a" ["a"]))
    (.single (.group (.or (.single (.clause (.comparison "b" .equal (.integer 1))))
      (.single (.single (.clause (.comparison "a" .greater (.integer 2)))))))))

/-- What had been recorded before is kept, and what the tree uses is added. -/
theorem parseFilter_records_presenceBesideGroup :
    ∃ filter after,
      parseFilter 1 "$exists=a,a&(b=1^a>2)" ⟨[("b", ["$select"])]⟩ = .ok filter after ∧
      ∀ field tag, after.Records field tag ↔
        (field = "b" ∧ tag = "$select") ∨
          (field, tag) ∈ [("b", "$eq"), ("a", "$gt"), ("a", "$exists")] := by
  have writable : presenceBesideGroup.isWritable = true := by rfl
  have nested : presenceBesideGroup.NestedWithin 1 := .inr (by decide)
  obtain ⟨tokens, scanned, derived⟩ := Disjunction.tokenize_source writable
  have accepted : parseFilter 1 "$exists=a,a&(b=1^a>2)" ⟨[("b", ["$select"])]⟩ =
      .ok ⟨presenceBesideGroup, tokens.length⟩ _ :=
    parseFilter_eq_ok.mpr ⟨tokens, scanned, rfl, derived, nested, rfl⟩
  have uses : Node.marks (Filter.node ⟨presenceBesideGroup, tokens.length⟩) =
      [("b", "$eq"), ("a", "$gt"), ("a", "$exists")] := by
    rfl
  refine ⟨_, _, accepted, ?_⟩
  intro field tag
  rw [(parseFilter_records accepted).1 field tag, ← Node.mem_marks_iff, uses]
  refine or_congr_left ?_
  by_cases isField : field = "b" <;>
    simp [Insights.Records, Insights.tags, Table.get?_cons, isField]

end UrlFilter
