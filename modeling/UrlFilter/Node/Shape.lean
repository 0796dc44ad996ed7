import Mathlib.Data.List.Chain
import UrlFilter.Node.Constraint

/-!
# The shape of filter trees

What the tree of a filter text looks like. Its comparisons name fields by words and constrain
each by a literal or by a map of operators; its joined nodes have several children; and in a
conjunction no two comparisons stand side by side that could have been one.
-/

namespace UrlFilter

/-- The value is a literal: it holds no other values. -/
def Value.IsLiteral : Value → Prop
  | .null | .bool _ | .int _ | .float _ | .text _ | .regex _ => True
  | .list _ | .map _ => False

/-- The operator can be given the operand: one or more literals to choose from, a truth value
for presence, and a literal for a comparison. -/
def Operator.Takes : Operator → Value → Prop
  | .compare _, operand => operand.IsLiteral
  | .within, operand | .outside, operand =>
    ∃ items, operand = .list items ∧ items ≠ [] ∧ ∀ item ∈ items, item.IsLiteral
  | .presence, operand => ∃ present, operand = .bool present

/-- The value constrains a field: it is a literal or a map from the tags of operators to their
operands. Equality stands in a map only beside another operator. -/
inductive Value.Constrains : Value → Prop where
  | literal {value : Value} (isLiteral : value.IsLiteral) : Value.Constrains value
  | operators {entries : Table Value} (nonempty : entries ≠ []) (distinct : entries.Distinct)
      (operands : ∀ entry ∈ entries,
        ∃ operator : Operator, entry.1 = operator.tag ∧ operator.Takes entry.2)
      (accompanied : equalTag ∈ entries.keys → ∃ tag ∈ entries.keys, tag ≠ equalTag) :
      Value.Constrains (.map entries)

/-- The name is a word: one or more letters, digits, underscores and points. -/
structure IsFieldName (name : String) : Prop where
  nonempty : name ≠ ""
  characters : ∀ c ∈ name.toList, c.isAlphanum = true ∨ c = '_' ∨ c = '.'

namespace Node

/-- Each field is named by a word, occurs once and is constrained by its value. -/
structure Constraining (fields : Table Value) : Prop where
  distinct : fields.Distinct
  entries : ∀ entry ∈ fields, IsFieldName entry.1 ∧ entry.2.Constrains

/-- The two comparisons constrain a common field by a common operator. -/
def Overlap (left right : Table Value) : Prop :=
  ∃ field leftValue rightValue tag, (field, leftValue) ∈ left ∧ (field, rightValue) ∈ right ∧
    tag ∈ leftValue.operatorTags ∧ tag ∈ rightValue.operatorTags

/-- The comparisons among the nodes, each by its fields. -/
def comparisons (nodes : List Node) : List (Table Value) :=
  nodes.filterMap fun
    | .comparison fields => some fields
    | .logical _ _ => none

/-- The tree has the shape of a filter's tree. Comparisons of a conjunction that follow each
other, perhaps with joined nodes between them, overlap. -/
inductive Shaped : Node → Prop where
  | comparison {fields : Table Value} (nonempty : fields ≠ [])
      (constraining : Constraining fields) : Shaped (.comparison fields)
  | logical {connector : Connector} {children : List Node} (several : 2 ≤ children.length)
      (each : ∀ child ∈ children, Shaped child)
      (overlapping : connector = .and → (comparisons children).IsChain Overlap) :
      Shaped (.logical connector children)

end Node

end UrlFilter
