import UrlFilter.Token.Lexeme

/-!
# Token patterns

The lexemes of each kind as a pattern that is matched by trying alternatives in order
and giving back what was taken when the rest does not fit. `Pattern.outcomes` lists
all ways to match, the preferred one first.
-/

namespace UrlFilter

open UrlFilter.Text

/-- A pattern over characters. -/
inductive Pattern where
  /-- Nothing. -/
  | nothing
  /-- One character of a class. -/
  | one (inClass : Char → Bool)
  /-- Nothing, where no character of the class follows. -/
  | unlessNext (inClass : Char → Bool)
  /-- One pattern after the other. -/
  | seq (first second : Pattern)
  /-- One of two patterns, preferably the first. -/
  | either (first second : Pattern)
  /-- Any number of times the pattern, preferably many. -/
  | many (inner : Pattern)

namespace Pattern

/-- What may be left after a step is taken any number of times up to a count, preferably
many times. -/
def repeatedly (step : List Char → List (List Char)) : Nat → List Char → List (List Char)
  | 0, text => [text]
  | count + 1, text => (step text).flatMap (repeatedly step count) ++ [text]

/-- What may be left of a text after a match at its start, the preferred outcome first. A
repeated pattern takes a character each time, so it is repeated at most as often as
the text has characters. -/
def outcomes : Pattern → List Char → List (List Char)
  | .nothing, text => [text]
  | .one inClass, text =>
    match text with
    | [] => []
    | c :: rest => if inClass c then [rest] else []
  | .unlessNext inClass, text => if text.head?.any inClass then [] else [text]
  | .seq first second, text => (first.outcomes text).flatMap second.outcomes
  | .either first second, text => first.outcomes text ++ second.outcomes text
  | .many inner, text => repeatedly inner.outcomes text.length text

/-- The characters that the preferred match takes. -/
def match? (pattern : Pattern) (text : List Char) : Option (List Char) :=
  (pattern.outcomes text).head?.map fun rest => text.take (text.length - rest.length)

/-- A certain character. -/
def char (c : Char) : Pattern :=
  .one (· == c)

/-- A certain text. -/
def literal (text : String) : Pattern :=
  text.toList.foldr (fun c rest => .seq (char c) rest) .nothing

/-- The pattern or nothing, preferably the pattern. -/
def optional (inner : Pattern) : Pattern :=
  .either inner .nothing

/-- The pattern at least once. -/
def oneOrMore (inner : Pattern) : Pattern :=
  .seq inner (.many inner)

/-- Text between two delimiters, in which a backslash escapes any one character that is
not a line feed. -/
def between (delimiter : Char) : Pattern :=
  .seq (char delimiter) <|
  .seq (.many (.either (.seq (char '\\') (.one (· != '\n')))
    (.one fun c => c != delimiter && c != '\\'))) (char delimiter)

/-- A phrase: stretches of bare text, each with a blank or a plus sign inside. -/
def phrase : Pattern :=
  let bare : Pattern := .one fun c => !Lexeme.endsPhrase c && !isBlank c
  let stretch : Pattern :=
    .seq (oneOrMore bare) <|
    .seq (oneOrMore (.either (.one isBlank) (char '+')))
      (.many (.one fun c => !Lexeme.endsPhrase c))
  oneOrMore stretch

/-- A number that no digit follows. -/
def number : Pattern :=
  .seq (optional (char '-')) <|
  .seq (.either (.seq (char '0') (.unlessNext isDecimalDigit))
    (.seq (.one fun c => '1' ≤ c && c ≤ '9') (.many (.one isDecimalDigit)))) <|
  .seq (optional (.seq (char '.') (oneOrMore (.one isDecimalDigit)))) (.unlessNext isDecimalDigit)

end Pattern

/-- The pattern of a kind of token. -/
def Kind.pattern : Kind → Pattern
  | .regex => .seq (.between '/') (.many (.one RegexFlag.isLetter))
  | .quoted => .between '\''
  | .phrase => .phrase
  | .number => .number
  | .boolean => .either (.literal "true") (.literal "false")
  | .null => .literal "null"
  | .notEqual => .literal "!="
  | .atLeast => .literal ">="
  | .atMost => .literal "<="
  | .matching => .literal "~="
  | .equal => .literal "="
  | .greater => .literal ">"
  | .less => .literal "<"
  | .or => .literal "^"
  | .and => .literal "&"
  | .openGroup => .literal "("
  | .closeGroup => .literal ")"
  | .openList => .literal "\x7b"
  | .closeList => .literal "\x7d"
  | .comma => .literal ","
  | .bang => .literal "!"
  | .keyword =>
    .seq (.char '$') (.seq (.optional (.char '!')) (.oneOrMore (.one Lexeme.isNameChar)))
  | .word => .oneOrMore (.one Lexeme.isWordChar)
  | .blank => .oneOrMore (.one isBlank)

end UrlFilter
