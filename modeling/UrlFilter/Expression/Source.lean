import UrlFilter.Expression

/-!
# The written form of an expression

Expressions are written without blanks, with `&` between terms, `^` between
conjunctions and parentheses around groups.
-/

namespace UrlFilter

open UrlFilter.Text

/-- How a clause is written, without blanks. -/
def Clause.source : Clause → String
  | .between lower lowerLimit field upperLimit upper =>
    lower.source ++ lowerLimit.symbol ++ field ++ upperLimit.symbol ++ upper.source
  | .presence present field others =>
    presenceKeyword present ++ "=" ++ joined "," (field :: others)
  | .membership field inside first others =>
    field ++ (if inside then "\x7b" else "!\x7b") ++
      joined "," ((first :: others).map Literal.source) ++ "\x7d"
  | .comparison field comparator operand => field ++ comparator.symbol ++ operand.source

mutual

/-- How a term is written, without blanks. -/
def Term.source : Term → String
  | .clause clause => clause.source
  | .group inside => "(" ++ inside.source ++ ")"

/-- How a conjunction is written, without blanks. -/
def Conjunction.source : Conjunction → String
  | .single term => term.source
  | .and term rest => term.source ++ "&" ++ rest.source

/-- How a disjunction is written, without blanks. -/
def Disjunction.source : Disjunction → String
  | .single conjunction => conjunction.source
  | .or conjunction rest => conjunction.source ++ "^" ++ rest.source

end

end UrlFilter
