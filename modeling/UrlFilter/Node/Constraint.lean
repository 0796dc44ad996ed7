import UrlFilter.Node

/-!
# Constraints

Every entry of a comparison stands for constraints, each on one field by one operator
with one value. A tree holds under a valuation of constraints or does not.
-/

namespace UrlFilter

/-- One field, one operator tag and one value. -/
structure Constraint where
  field : String
  tag : String
  value : Value
deriving DecidableEq

/-- The tag of the operator that a plain value stands for. -/
def equalTag : String :=
  (Operator.compare .equal).tag

namespace Value

/-- The value of a field as a map from operator tags to values: a plain value is one
that the field has to equal. -/
def operators : Value → Table Value
  | .map entries => entries
  | plain => [(equalTag, plain)]

/-- The operator tags of a field's value. -/
def operatorTags (value : Value) : List String :=
  value.operators.keys

end Value

namespace Node

/-- The constraints of a comparison's entries, in order. -/
def fieldConstraints (fields : List (String × Value)) : List Constraint :=
  fields.flatMap fun (field, value) =>
    value.operators.map fun (tag, operand) => ⟨field, tag, operand⟩

mutual

/-- All constraints in a tree, in order. -/
def constraints : Node → List Constraint
  | .comparison fields => fieldConstraints fields
  | .logical _ children => childConstraints children

/-- All constraints in a list of trees, in order. -/
def childConstraints : List Node → List Constraint
  | [] => []
  | child :: rest => child.constraints ++ childConstraints rest

end

mutual

/-- The tree holds when the constraints hold that the valuation says hold. -/
def holds (valuation : Constraint → Bool) : Node → Bool
  | .comparison fields => (fieldConstraints fields).all valuation
  | .logical .and children => allHold valuation children
  | .logical .or children => anyHolds valuation children

/-- All the trees hold. -/
def allHold (valuation : Constraint → Bool) : List Node → Bool
  | [] => true
  | child :: rest => child.holds valuation && allHold valuation rest

/-- One of the trees holds. -/
def anyHolds (valuation : Constraint → Bool) : List Node → Bool
  | [] => false
  | child :: rest => child.holds valuation || anyHolds valuation rest

end

end Node

end UrlFilter
