import UrlFilter.Expression
import UrlFilter.Text.Percent
import UrlFilter.Token.Lexeme

/-!
# Query segments

A query string consists of segments between `&`, each percent-encoded on its own. A
segment that starts with a control name is a control, and all others are parts of the
filter.
-/

namespace UrlFilter

open UrlFilter.Text

/-- The decoded segments of a query string, in order. -/
structure Segments where
  controls : List String
  filters : List String
deriving DecidableEq, Repr

namespace Segments

/-- The segment starts with a dollar sign and a further character of a control name. -/
def startsWithControlName : List Char → Bool
  | '$' :: c :: _ => Lexeme.isNameChar c || c == '!'
  | _ => false

/-- The segment starts as a presence clause does. -/
def startsWithPresence (segment : List Char) : Bool :=
  [true, false].any fun present =>
    (Clause.presenceKeyword present ++ "=").toList.isPrefixOf segment

/-- The segment is a control. -/
def isControl (segment : String) : Bool :=
  startsWithControlName segment.toList && !startsWithPresence segment.toList

/-- The decoded segments of a query string in their order; empty ones are dropped
before they are decoded. -/
def decodeAll (raw : String) : List String :=
  (nonemptyParts '&' raw.toList).map fun part => String.ofList (Percent.decode part)

/-- Splits a query string into its controls and its filters. -/
def split (raw : String) : Segments :=
  let segments := decodeAll raw
  ⟨segments.filter isControl, segments.filter fun segment => !isControl segment⟩

end Segments

end UrlFilter
