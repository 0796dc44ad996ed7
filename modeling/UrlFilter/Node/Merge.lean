import UrlFilter.Node.Constraint

/-!
# Merging a conjunction

The comparisons of a conjunction are folded into as few as their order allows. Two
constraints on a field share a comparison unless they use the same operator; then the
second one starts a new comparison.
-/

namespace UrlFilter

/-- A conjunction in which nothing constrains a field. -/
structure EmptyConjunction where
deriving DecidableEq, Repr

/-- The wording of the failure. -/
def EmptyConjunction.message (_ : EmptyConjunction) : String :=
  "Cannot merge an empty conjunction"

/-- A merge in progress: the members that are finished and the fields of the comparison
that still grows. -/
structure Merge where
  done : List Node
  current : Table Value

namespace Merge

/-- A merge of nothing. -/
def empty : Merge :=
  ⟨[], []⟩

/-- The values of a field cannot share a comparison: they have an operator in common. -/
def conflict (left right : Value) : Bool :=
  left.operatorTags.any right.operatorTags.contains

/-- The value that carries the operators of two values of a field. -/
def combined (left right : Value) : Value :=
  .map (Table.update left.operators right.operators)

/-- Adds one entry of a comparison. -/
def addField (merge : Merge) (entry : String × Value) : Merge :=
  match merge.current.get? entry.1 with
  | none => { merge with current := merge.current.put entry.1 entry.2 }
  | some present =>
    if conflict present entry.2 then
      ⟨merge.done ++ [.comparison merge.current], [entry]⟩
    else { merge with current := merge.current.put entry.1 (combined present entry.2) }

/-- Adds one term of the conjunction: a joined node is finished as it is, and a
comparison is added entry by entry. -/
def addNode (merge : Merge) : Node → Merge
  | .comparison fields => fields.foldl addField merge
  | .logical connector children =>
    { merge with done := merge.done ++ [.logical connector children] }

/-- The members of the merged conjunction. -/
def members (merge : Merge) : List Node :=
  if merge.current.isEmpty then merge.done else merge.done ++ [.comparison merge.current]

end Merge

namespace Node

/-- Several nodes as one. A single node stands for itself, and no node at all for a
comparison of no fields. -/
def joinAll (connector : Connector) : List Node → Node
  | [] => .comparison []
  | [only] => only
  | several => .logical connector several

/-- The members of the conjunction of the terms. -/
def mergedMembers (terms : List Node) : List Node :=
  (terms.foldl Merge.addNode Merge.empty).members

/-- The conjunction of the terms as one node. -/
def merged (terms : List Node) : Node :=
  joinAll .and (mergedMembers terms)

/-- The conjunction of the terms as one node, if one of them constrains a field or is a
joined node. -/
def merge (terms : List Node) : Except EmptyConjunction Node :=
  if (mergedMembers terms).isEmpty then .error ⟨⟩ else .ok (merged terms)

end Node

end UrlFilter
