import UrlFilter.Token

/-!
# Operators

The ways in which a clause constrains a field, with the tags that name them in a
filter tree and in the insights.
-/

namespace UrlFilter

/-- A comparison of a field with one literal. -/
inductive Comparator where
  | equal
  | notEqual
  | greater
  | atLeast
  | less
  | atMost
  | matching
deriving DecidableEq, Repr

namespace Comparator

/-- How a comparator is written between a field and a literal. -/
def symbol : Comparator → String
  | .equal => "="
  | .notEqual => "!="
  | .greater => ">"
  | .atLeast => ">="
  | .less => "<"
  | .atMost => "<="
  | .matching => "~="

/-- The kind of token that writes a comparator. -/
def kind : Comparator → Kind
  | .equal => .equal
  | .notEqual => .notEqual
  | .greater => .greater
  | .atLeast => .atLeast
  | .less => .less
  | .atMost => .atMost
  | .matching => .matching

/-- The comparator that a kind of token writes. -/
def ofKind? : Kind → Option Comparator
  | .equal => some .equal
  | .notEqual => some .notEqual
  | .greater => some .greater
  | .atLeast => some .atLeast
  | .less => some .less
  | .atMost => some .atMost
  | .matching => some .matching
  | _ => none

/-- The kind of token that writes a comparator writes this one. -/
@[simp] theorem ofKind?_kind (comparator : Comparator) :
    ofKind? comparator.kind = some comparator := by
  cases comparator <;> rfl

/-- Only its own kind of token writes a comparator. -/
theorem ofKind?_eq_some_iff {kind : Kind} {comparator : Comparator} :
    ofKind? kind = some comparator ↔ kind = comparator.kind := by
  constructor
  · intro found
    cases kind <;> cases found <;> rfl
  · rintro rfl
    exact ofKind?_kind comparator

end Comparator

/-- Whether a bound of a between clause is itself left out. -/
inductive Limit where
  | strict
  | inclusive
deriving DecidableEq, Repr

namespace Limit

/-- How a limit is written on either side of the field. -/
def symbol : Limit → String
  | .strict => "<"
  | .inclusive => "<="

/-- The kind of token that writes a limit. -/
def kind : Limit → Kind
  | .strict => .less
  | .inclusive => .atMost

/-- The limit that a kind of token writes. -/
def ofKind? : Kind → Option Limit
  | .less => some .strict
  | .atMost => some .inclusive
  | _ => none

/-- Only its own kind of token writes a limit. -/
theorem ofKind?_eq_some_iff {kind : Kind} {limit : Limit} :
    ofKind? kind = some limit ↔ kind = limit.kind := by
  constructor
  · intro found
    cases kind <;> cases found <;> rfl
  · rintro rfl
    cases limit <;> rfl

/-- The comparator of the field with a lower bound. -/
def above : Limit → Comparator
  | .strict => .greater
  | .inclusive => .atLeast

/-- The comparator of the field with an upper bound. -/
def below : Limit → Comparator
  | .strict => .less
  | .inclusive => .atMost

end Limit

/-- A way in which a clause constrains a field. -/
inductive Operator where
  | compare (comparator : Comparator)
  | within
  | outside
  | presence
deriving DecidableEq, Repr

namespace Operator

/-- The tag that names an operator. -/
def tag : Operator → String
  | .compare .equal => "$eq"
  | .compare .notEqual => "$ne"
  | .compare .greater => "$gt"
  | .compare .atLeast => "$gte"
  | .compare .less => "$lt"
  | .compare .atMost => "$lte"
  | .compare .matching => "$regex"
  | .within => "$in"
  | .outside => "$nin"
  | .presence => "$exists"

end Operator

end UrlFilter
