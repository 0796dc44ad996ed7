import UrlFilter.Numeral.Integer
import UrlFilter.Numeral.Shortest
import UrlFilter.Regex
import UrlFilter.Table
import UrlFilter.Text.Separated

/-!
# Values

The values that constraints, controls and error details carry: literals, lists of
values and maps in insertion order.
-/

namespace UrlFilter

open UrlFilter.Numeral UrlFilter.Text

/-- A literal, a list or a map. -/
inductive Value where
  | null
  | bool (truth : Bool)
  | int (number : Int)
  | float (number : Binary64)
  | text (content : String)
  | regex (literal : Regex)
  | list (items : List Value)
  | map (entries : List (String × Value))

namespace Value

mutual

/-- Decides whether two values are equal in every detail. -/
def decideEq : (left right : Value) → Decidable (left = right)
  | .null, right => match right with
    | .null => isTrue rfl
    | .bool _ | .int _ | .float _ | .text _ | .regex _ | .list _ | .map _ => isFalse (by simp)
  | .bool left, right => match right with
    | .bool right => decidable_of_iff (left = right) (by simp)
    | .null | .int _ | .float _ | .text _ | .regex _ | .list _ | .map _ => isFalse (by simp)
  | .int left, right => match right with
    | .int right => decidable_of_iff (left = right) (by simp)
    | .null | .bool _ | .float _ | .text _ | .regex _ | .list _ | .map _ => isFalse (by simp)
  | .float left, right => match right with
    | .float right => decidable_of_iff (left = right) (by simp)
    | .null | .bool _ | .int _ | .text _ | .regex _ | .list _ | .map _ => isFalse (by simp)
  | .text left, right => match right with
    | .text right => decidable_of_iff (left = right) (by simp)
    | .null | .bool _ | .int _ | .float _ | .regex _ | .list _ | .map _ => isFalse (by simp)
  | .regex left, right => match right with
    | .regex right => decidable_of_iff (left = right) (by simp)
    | .null | .bool _ | .int _ | .float _ | .text _ | .list _ | .map _ => isFalse (by simp)
  | .list left, right => match right with
    | .list right =>
      letI := decideEqItems left right
      decidable_of_iff (left = right) (by simp)
    | .null | .bool _ | .int _ | .float _ | .text _ | .regex _ | .map _ => isFalse (by simp)
  | .map left, right => match right with
    | .map right =>
      letI := decideEqEntries left right
      decidable_of_iff (left = right) (by simp)
    | .null | .bool _ | .int _ | .float _ | .text _ | .regex _ | .list _ => isFalse (by simp)

/-- Decides whether two lists of values are equal in every detail. -/
def decideEqItems : (left right : List Value) → Decidable (left = right)
  | [], [] => isTrue rfl
  | [], _ :: _ => isFalse (by simp)
  | _ :: _, [] => isFalse (by simp)
  | left :: lefts, right :: rights =>
    letI := decideEq left right
    letI := decideEqItems lefts rights
    decidable_of_iff (left = right ∧ lefts = rights) (by simp)

/-- Decides whether the entries of two maps are equal in every detail and in order. -/
def decideEqEntries : (left right : List (String × Value)) → Decidable (left = right)
  | [], [] => isTrue rfl
  | [], _ :: _ => isFalse (by simp)
  | _ :: _, [] => isFalse (by simp)
  | (leftKey, left) :: lefts, (rightKey, right) :: rights =>
    letI := decideEq left right
    letI := decideEqEntries lefts rights
    decidable_of_iff ((leftKey = rightKey ∧ left = right) ∧ lefts = rights) (by simp)

end

instance : DecidableEq Value := decideEq

/-- The value is a map. -/
def isMap : Value → Bool
  | .map _ => true
  | _ => false

mutual

/-- The value as descriptions show it, if every integer in it can be described. -/
def describe : Value → Except DescribeError String
  | .null => return "None"
  | .bool truth => return if truth then "True" else "False"
  | .int number => Integer.describe number
  | .float number => return number.text
  | .text content => return quoted content
  | .regex literal => return literal.describe
  | .list items => return "[" ++ joined ", " (← describeItems items) ++ "]"
  | .map entries => return "\x7b" ++ joined ", " (← describeEntries entries) ++ "\x7d"

/-- The items of a list as descriptions show them. -/
def describeItems : List Value → Except DescribeError (List String)
  | [] => return []
  | item :: rest => return (← item.describe) :: (← describeItems rest)

/-- The entries of a map as descriptions show them. -/
def describeEntries : List (String × Value) → Except DescribeError (List String)
  | [] => return []
  | (key, value) :: rest =>
    return (quoted key ++ ": " ++ (← value.describe)) :: (← describeEntries rest)

end

mutual

/-- The value with each regular expression as a map of its pattern and its flags. -/
def expandRegex : Value → Value
  | .regex literal => .map [("pattern", .text literal.pattern), ("flags", .text literal.flagText)]
  | .list items => .list (expandRegexItems items)
  | .map entries => .map (expandRegexEntries entries)
  | other => other

/-- Expands the regular expressions in the items of a list. -/
def expandRegexItems : List Value → List Value
  | [] => []
  | item :: rest => item.expandRegex :: expandRegexItems rest

/-- Expands the regular expressions in the entries of a map. -/
def expandRegexEntries : List (String × Value) → List (String × Value)
  | [] => []
  | (key, value) :: rest => (key, value.expandRegex) :: expandRegexEntries rest

end

end Value

end UrlFilter
