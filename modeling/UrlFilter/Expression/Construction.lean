import UrlFilter.Expression.Tree

/-!
# Building a tree step by step

The tree of an expression is built from its clauses upwards by merging and joining. Either
step refuses to make a node of nothing.
-/

namespace UrlFilter

/-- Why no tree can be built. -/
inductive TreeFailure where
  | merging (error : EmptyConjunction)
  | joining (error : NodeError)
deriving DecidableEq, Repr

/-- The conjunction of terms as one node. -/
def Node.conjoin (terms : List Node) : Except TreeFailure Node :=
  (Node.merge terms).mapError .merging

/-- The disjunction of conjunctions as one node: a single one stands for itself. -/
def Node.disjoin : List Node → Except TreeFailure Node
  | [only] => .ok only
  | several => (Node.join Connector.or.tag several).mapError .joining

mutual

/-- Builds the tree of a term. -/
def Term.build : Term → Except TreeFailure Node
  | .clause clause => .ok (.comparison clause.fields)
  | .group inside => do Node.disjoin (← inside.buildEach)

/-- Builds the trees of the terms of a conjunction. -/
def Conjunction.buildEach : Conjunction → Except TreeFailure (List Node)
  | .single term => do return [← term.build]
  | .and term rest => do return (← term.build) :: (← rest.buildEach)

/-- Builds the trees of the conjunctions of a disjunction. -/
def Disjunction.buildEach : Disjunction → Except TreeFailure (List Node)
  | .single conjunction => do return [← Node.conjoin (← conjunction.buildEach)]
  | .or conjunction rest => do
    return (← Node.conjoin (← conjunction.buildEach)) :: (← rest.buildEach)

end

/-- Builds the tree of a disjunction. -/
def Disjunction.build (disjunction : Disjunction) : Except TreeFailure Node := do
  Node.disjoin (← disjunction.buildEach)

end UrlFilter
