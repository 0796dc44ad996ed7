import UrlFilter.Operator
import UrlFilter.Value.Same

/-!
# Filter trees

A tree is built of comparisons, which constrain fields, and of conjunctions and
disjunctions of trees. A field has a plain value, which it has to equal, or a map from
operator tags to values.
-/

namespace UrlFilter

open UrlFilter.Numeral UrlFilter.Text

/-- How the children of a node are joined. -/
inductive Connector where
  | and
  | or
deriving DecidableEq, Repr

namespace Connector

/-- The tag that names a connector. -/
def tag : Connector → String
  | .and => "$and"
  | .or => "$or"

/-- The connector with a tag. -/
def ofTag? (tag : String) : Option Connector :=
  [Connector.and, .or].find? fun connector => connector.tag = tag

end Connector

/-- A filter tree. -/
inductive Node where
  | comparison (fields : List (String × Value))
  | logical (connector : Connector) (children : List Node)

/-- Why a joined node cannot be made. -/
inductive NodeError where
  | unknownConnector (tag : String)
  | noChildren (connector : Connector)
deriving DecidableEq, Repr

/-- The wording of the failure. -/
def NodeError.message : NodeError → String
  | .unknownConnector tag => "Unsupported connector: " ++ tag
  | .noChildren connector => connector.tag ++ " node requires at least one child"

namespace Node

mutual

/-- Decides whether two trees are equal in every detail. -/
def decideEq : (left right : Node) → Decidable (left = right)
  | .comparison left, right => match right with
    | .comparison right => decidable_of_iff (left = right) (by simp)
    | .logical _ _ => isFalse (by simp)
  | .logical connector children, right => match right with
    | .comparison _ => isFalse (by simp)
    | .logical otherConnector otherChildren =>
      letI := decideEqChildren children otherChildren
      decidable_of_iff (connector = otherConnector ∧ children = otherChildren) (by simp)

/-- Decides whether two lists of trees are equal in every detail. -/
def decideEqChildren : (left right : List Node) → Decidable (left = right)
  | [], [] => isTrue rfl
  | [], _ :: _ => isFalse (by simp)
  | _ :: _, [] => isFalse (by simp)
  | left :: lefts, right :: rights =>
    letI := decideEq left right
    letI := decideEqChildren lefts rights
    decidable_of_iff (left = right ∧ lefts = rights) (by simp)

end

instance : DecidableEq Node := decideEq

/-- The node that joins children by the connector with a tag. -/
def join (tag : String) (children : List Node) : Except NodeError Node :=
  match Connector.ofTag? tag with
  | none => .error (.unknownConnector tag)
  | some connector =>
    if children.isEmpty then .error (.noChildren connector) else .ok (.logical connector children)

/-- The node is a comparison. -/
def isComparison : Node → Bool
  | .comparison _ => true
  | .logical _ _ => false

/-- The name of the node's kind. -/
def kindName : Node → String
  | .comparison _ => "comparison"
  | .logical _ _ => "logical"

/-- A node is empty if it is a comparison of no fields. -/
def isEmpty : Node → Bool
  | .comparison fields => fields.isEmpty
  | .logical _ _ => false

mutual

/-- The tree as a map. -/
def toValue : Node → Value
  | .comparison fields => .map fields
  | .logical connector children => .map [(connector.tag, .list (toValues children))]

/-- The trees as maps. -/
def toValues : List Node → List Value
  | [] => []
  | child :: rest => child.toValue :: toValues rest

end

/-- The tree as descriptions show it. -/
def describe (node : Node) : Except DescribeError String :=
  return (if node.isComparison then "<Comparison: " else "<Logical: ") ++
    (← node.toValue.describe) ++ ">"

mutual

/-- Two trees have the same shape and the same values; the order of fields is free, the
order of children is not. -/
def same : Node → Node → Bool
  | .comparison left, .comparison right => (Value.map left).same (.map right)
  | .logical connector children, .logical otherConnector otherChildren =>
    connector == otherConnector && sameChildren children otherChildren
  | _, _ => false

/-- Two lists of trees are the same tree by tree. -/
def sameChildren : List Node → List Node → Bool
  | [], [] => true
  | left :: lefts, right :: rights => same left right && sameChildren lefts rights
  | _, _ => false

end

end Node

end UrlFilter
