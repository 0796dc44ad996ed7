import UrlFilter.Literal
import UrlFilter.Operator

/-!
# Filter expressions

The expressions that filter text writes, by their grammar: a disjunction of
conjunctions of terms, where a term is a clause or a group.
-/

namespace UrlFilter

/-- A clause constrains fields without using other clauses. -/
inductive Clause where
  /-- A field lies between two literals. -/
  | between (lower : Literal) (lowerLimit : Limit) (field : String) (upperLimit : Limit)
      (upper : Literal)
  /-- All of the fields are present, or all of them are absent. -/
  | presence (present : Bool) (field : String) (others : List String)
  /-- A field is one of the literals, or none of them. -/
  | membership (field : String) (inside : Bool) (first : Literal) (others : List Literal)
  /-- A field is compared with a literal. -/
  | comparison (field : String) (comparator : Comparator) (operand : Literal)
deriving DecidableEq, Repr

namespace Clause

/-- The operator of a membership clause. -/
def membershipOperator (inside : Bool) : Operator :=
  if inside then .within else .outside

/-- The keyword of a presence clause. -/
def presenceKeyword (present : Bool) : String :=
  if present then "$exists" else "$!exists"

/-- The presence that a keyword asks for. -/
def ofKeyword? (keyword : String) : Option Bool :=
  [true, false].find? fun present => presenceKeyword present = keyword

/-- Only its own keyword asks for a presence. -/
theorem ofKeyword?_eq_some_iff {keyword : String} {present : Bool} :
    ofKeyword? keyword = some present ↔ keyword = presenceKeyword present := by
  constructor
  · intro found
    have spelled := List.find?_some found
    exact (of_decide_eq_true spelled).symm
  · rintro rfl
    cases present <;> decide

end Clause

mutual

/-- A term of a conjunction. -/
inductive Term where
  | clause (clause : Clause)
  | group (inside : Disjunction)

/-- Terms that all have to hold. -/
inductive Conjunction where
  | single (term : Term)
  | and (term : Term) (rest : Conjunction)

/-- Conjunctions of which one has to hold. -/
inductive Disjunction where
  | single (conjunction : Conjunction)
  | or (conjunction : Conjunction) (rest : Disjunction)

end

deriving instance DecidableEq for Term, Conjunction, Disjunction

namespace Conjunction

/-- The conjunction of a term and further terms. -/
def ofTerms (first : Term) : List Term → Conjunction
  | [] => .single first
  | second :: others => .and first (ofTerms second others)

/-- The terms, in order. -/
def terms : Conjunction → List Term
  | .single term => [term]
  | .and term rest => term :: rest.terms

end Conjunction

namespace Disjunction

/-- The disjunction of a conjunction and further conjunctions. -/
def ofConjunctions (first : Conjunction) : List Conjunction → Disjunction
  | [] => .single first
  | second :: others => .or first (ofConjunctions second others)

/-- The conjunctions, in order. -/
def conjunctions : Disjunction → List Conjunction
  | .single conjunction => [conjunction]
  | .or conjunction rest => conjunction :: rest.conjunctions

end Disjunction

mutual

/-- How many groups are nested in a term, one inside the other. -/
def Term.depth : Term → Nat
  | .clause _ => 0
  | .group inside => inside.depth + 1

/-- How many groups are nested in a conjunction, one inside the other. -/
def Conjunction.depth : Conjunction → Nat
  | .single term => term.depth
  | .and term rest => max term.depth rest.depth

/-- How many groups are nested in a disjunction, one inside the other. -/
def Disjunction.depth : Disjunction → Nat
  | .single conjunction => conjunction.depth
  | .or conjunction rest => max conjunction.depth rest.depth

end

end UrlFilter
