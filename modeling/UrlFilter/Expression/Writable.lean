import UrlFilter.Expression.Source
import UrlFilter.Token.Lexeme

/-!
# Expressions that can be written

Not everything that an expression may hold can be written: a field may have the name of a
number, a string may end in the middle, and a blank in a list makes a phrase of the word
before it.
-/

namespace UrlFilter

open UrlFilter.Numeral

namespace Lexeme

/-- The text may stand between delimiters: each of its delimiters is escaped by a backslash,
and each backslash escapes a character that is not a line feed. -/
def isEscaped (delimiter : Char) : List Char → Bool
  | [] => true
  | '\\' :: [] => false
  | '\\' :: c :: rest => c != '\n' && isEscaped delimiter rest
  | c :: rest => c != delimiter && isEscaped delimiter rest

/-- The text starts as numbers do. -/
def startsNumber : List Char → Bool
  | [] => false
  | '0' :: rest => !(rest.head?.any Char.isDigit)
  | c :: _ => '1' ≤ c ∧ c ≤ '9'

/-- The text is a word, and no other kind of token stands at its start. -/
def isBareWord (text : List Char) : Bool :=
  !text.isEmpty && text.all isWordChar && !startsNumber text &&
    ["true", "false", "null"].all fun name => !name.toList.isPrefixOf text

end Lexeme

/-- The literal is read back from its source. -/
def Literal.isWritable : Literal → Bool
  | .integer number => (Nat.toDigits 10 number.natAbs).length ≤ Integer.digitLimit
  | .boolean _ => true
  | .null => true
  | .regex literal => Lexeme.isEscaped '/' literal.pattern.toList
  | .quoted content => Lexeme.isEscaped '\'' content.toList
  | .word content => Lexeme.isBareWord content.toList
  | .decimal _ => false
  | .phrase _ => false

/-- No character of the source joins words to a phrase. -/
def Literal.isCalm (literal : Literal) : Bool :=
  !literal.source.toList.any Lexeme.joinsWords

/-- The literal may be the lower bound of a between clause. -/
def Literal.isLowerBound : Literal → Bool
  | .integer _ => true
  | .quoted _ => true
  | _ => false

/-- The clause is read back from its source. -/
def Clause.isWritable : Clause → Bool
  | .between lower _ field _ upper =>
    lower.isLowerBound && lower.isWritable && Lexeme.isBareWord field.toList && upper.isWritable
  | .presence _ field others => (field :: others).all fun name => Lexeme.isBareWord name.toList
  | .membership field _ first others =>
    Lexeme.isBareWord field.toList &&
      (first :: others).all fun literal => literal.isWritable && literal.isCalm
  | .comparison field _ operand => Lexeme.isBareWord field.toList && operand.isWritable

mutual

/-- Every clause of the term is read back from its source. -/
def Term.isWritable : Term → Bool
  | .clause clause => clause.isWritable
  | .group inside => inside.isWritable

/-- Every clause of the conjunction is read back from its source. -/
def Conjunction.isWritable : Conjunction → Bool
  | .single term => term.isWritable
  | .and term rest => term.isWritable && rest.isWritable

/-- Every clause of the disjunction is read back from its source. -/
def Disjunction.isWritable : Disjunction → Bool
  | .single conjunction => conjunction.isWritable
  | .or conjunction rest => conjunction.isWritable && rest.isWritable

end

end UrlFilter
