import UrlFilter.Expression
import UrlFilter.Insights
import UrlFilter.Node.Merge

/-!
# The tree of an expression

Every clause is a comparison, the terms of a conjunction are merged, and two or more
conjunctions are joined. The marks of an expression are what its clauses use.
-/

namespace UrlFilter

namespace Clause

/-- The fields of the clause's comparison. -/
def fields : Clause → Table Value
  | .between lower lowerLimit field upperLimit upper =>
    [(field, .map [((Operator.compare lowerLimit.above).tag, lower.value),
      ((Operator.compare upperLimit.below).tag, upper.value)])]
  | .presence present field others =>
    Table.ofList ((field :: others).map fun name =>
      (name, .map [(Operator.presence.tag, .bool present)]))
  | .membership field inside first others =>
    [(field, .map [((membershipOperator inside).tag, .list ((first :: others).map Literal.value))])]
  | .comparison field .equal operand => [(field, operand.value)]
  | .comparison field comparator operand =>
    [(field, .map [((Operator.compare comparator).tag, operand.value)])]

/-- The fields of the clause and the tags used on them, in the order of the text. -/
def marks : Clause → List Mark
  | .between _ lowerLimit field upperLimit _ =>
    [(field, (Operator.compare lowerLimit.above).tag),
      (field, (Operator.compare upperLimit.below).tag)]
  | .presence _ field others =>
    (field :: others).map fun name => (name, Operator.presence.tag)
  | .membership field inside _ _ => [(field, (membershipOperator inside).tag)]
  | .comparison field comparator _ => [(field, (Operator.compare comparator).tag)]

end Clause

mutual

/-- The filter tree of a term. A group is what stands inside it. -/
def Term.toNode : Term → Node
  | .clause clause => .comparison clause.fields
  | .group inside => Node.joinAll .or inside.toNodes

/-- The filter trees of the terms of a conjunction. -/
def Conjunction.toNodes : Conjunction → List Node
  | .single term => [term.toNode]
  | .and term rest => term.toNode :: rest.toNodes

/-- The filter trees of the conjunctions of a disjunction. -/
def Disjunction.toNodes : Disjunction → List Node
  | .single conjunction => [Node.merged conjunction.toNodes]
  | .or conjunction rest => Node.merged conjunction.toNodes :: rest.toNodes

end

/-- The filter tree of a conjunction: its terms merged. -/
def Conjunction.toNode (conjunction : Conjunction) : Node :=
  Node.merged conjunction.toNodes

/-- The filter tree of a disjunction: its conjunctions joined. -/
def Disjunction.toNode (disjunction : Disjunction) : Node :=
  Node.joinAll .or disjunction.toNodes

mutual

/-- The marks of a term, in the order of the text. -/
def Term.marks : Term → List Mark
  | .clause clause => clause.marks
  | .group inside => inside.marks

/-- The marks of a conjunction, in the order of the text. -/
def Conjunction.marks : Conjunction → List Mark
  | .single term => term.marks
  | .and term rest => term.marks ++ rest.marks

/-- The marks of a disjunction, in the order of the text. -/
def Disjunction.marks : Disjunction → List Mark
  | .single conjunction => conjunction.marks
  | .or conjunction rest => conjunction.marks ++ rest.marks

end

end UrlFilter
