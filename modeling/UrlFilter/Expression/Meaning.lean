import UrlFilter.Expression
import UrlFilter.Node.Constraint

/-!
# The meaning of an expression

An expression holds or not under a valuation of constraints, read off its grammar: `^`
is a disjunction, `&` a conjunction, and a group is what stands inside it. The tags of the
constraints are written out here, apart from the operators that the tree is built of.
-/

namespace UrlFilter

/-- The tag of the constraint that a comparison states. -/
def Comparator.statedTag : Comparator → String
  | .equal => "$eq"
  | .notEqual => "$ne"
  | .greater => "$gt"
  | .atLeast => "$gte"
  | .less => "$lt"
  | .atMost => "$lte"
  | .matching => "$regex"

/-- The tag of the constraint that the limit on the left of a field states. -/
def Limit.statedLeft : Limit → String
  | .strict => "$gt"
  | .inclusive => "$gte"

/-- The tag of the constraint that the limit on the right of a field states. -/
def Limit.statedRight : Limit → String
  | .strict => "$lt"
  | .inclusive => "$lte"

/-- The clause holds when the constraints that it states hold. -/
def Clause.holds (valuation : Constraint → Bool) : Clause → Bool
  | .between lower lowerLimit field upperLimit upper =>
    valuation ⟨field, lowerLimit.statedLeft, lower.value⟩ &&
      valuation ⟨field, upperLimit.statedRight, upper.value⟩
  | .presence present field others =>
    (field :: others).all fun name => valuation ⟨name, "$exists", .bool present⟩
  | .membership field inside first others =>
    let tag := if inside then "$in" else "$nin"
    valuation ⟨field, tag, .list ((first :: others).map Literal.value)⟩
  | .comparison field comparator operand =>
    valuation ⟨field, comparator.statedTag, operand.value⟩

-- `25<age<=35` leaves out 25 and admits 35.
example (valuation : Constraint → Bool) :
    Clause.holds valuation (.between (.integer 25) .strict "age" .inclusive (.integer 35)) =
      (valuation ⟨"age", "$gt", .int 25⟩ && valuation ⟨"age", "$lte", .int 35⟩) :=
  rfl

mutual

/-- The term holds when the constraints hold that the valuation says hold. -/
def Term.holds (valuation : Constraint → Bool) : Term → Bool
  | .clause clause => clause.holds valuation
  | .group inside => inside.holds valuation

/-- All terms of the conjunction hold. -/
def Conjunction.holds (valuation : Constraint → Bool) : Conjunction → Bool
  | .single term => term.holds valuation
  | .and term rest => term.holds valuation && rest.holds valuation

/-- One of the conjunctions holds. -/
def Disjunction.holds (valuation : Constraint → Bool) : Disjunction → Bool
  | .single conjunction => conjunction.holds valuation
  | .or conjunction rest => conjunction.holds valuation || rest.holds valuation

end

end UrlFilter
