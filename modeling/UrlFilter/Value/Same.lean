import UrlFilter.Value

/-!
# Sameness of values

Values are compared by what they stand for: numbers and truth values by their exact
number, lists item by item, and maps without regard to the order of their keys.
-/

namespace UrlFilter

open UrlFilter.Numeral

/-- What a number, or a truth value taken as zero or one, stands for. -/
inductive Quantity where
  | rational (number : Rat)
  | infinite (negative : Bool)
  | undefined
deriving DecidableEq, Repr

namespace Quantity

/-- What a double-precision number stands for. -/
def ofBinary64 : Binary64 → Quantity
  | .infinite negative => .infinite negative
  | number => (number.toRat?).elim .undefined .rational

/-- Two quantities are the same if both are defined and equal. -/
def same (left right : Quantity) : Bool :=
  left ≠ .undefined ∧ left = right

end Quantity

namespace Value

/-- The quantity that a value stands for, if it stands for one. -/
def quantity? : Value → Option Quantity
  | .bool truth => some (.rational (if truth then 1 else 0))
  | .int number => some (.rational number)
  | .float number => some (.ofBinary64 number)
  | _ => none

/-- Sameness of values that hold no other values. -/
def sameScalar (left right : Value) : Bool :=
  match left.quantity?, right.quantity? with
  | some leftQuantity, some rightQuantity => leftQuantity.same rightQuantity
  | some _, none => false
  | none, some _ => false
  | none, none => decide (left = right)

mutual

/-- Two values stand for the same thing. -/
def same : Value → Value → Bool
  | .list left, .list right => sameItems left right
  | .map left, .map right => left.length == right.length && sameEntries left right
  | left, right => sameScalar left right

/-- Two lists are the same item by item. -/
def sameItems : List Value → List Value → Bool
  | [], [] => true
  | left :: lefts, right :: rights => same left right && sameItems lefts rights
  | _, _ => false

/-- Each entry has an entry with the same value under its key in the second map. -/
def sameEntries : List (String × Value) → List (String × Value) → Bool
  | [], _ => true
  | (key, left) :: rest, rights =>
    (match rights.lookup key with
      | some right => same left right
      | none => false) && sameEntries rest rights

end

end Value

end UrlFilter
