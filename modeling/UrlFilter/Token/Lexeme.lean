import UrlFilter.Regex
import UrlFilter.Text.Blank
import UrlFilter.Text.DecimalDigit
import UrlFilter.Token

/-!
# Lexemes

For each kind of token, the characters at the start of a text that form one. Blanks
form a lexeme too, although no token is made of them.
-/

namespace UrlFilter.Lexeme

open UrlFilter.Text

/-- A character of a keyword. -/
def isNameChar (c : Char) : Bool :=
  c.isAlphanum || c == '_'

/-- A character of a field name or a bare word. -/
def isWordChar (c : Char) : Bool :=
  isNameChar c || c == '.'

/-- A character that no phrase contains. -/
def endsPhrase (c : Char) : Bool :=
  ['&', '^', ')', '=', '>', '<', '!'].contains c

/-- A character that makes a phrase of what would otherwise be a word. -/
def joinsWords (c : Char) : Bool :=
  isBlank c || c == '+'

/-- The characters up to and including the first delimiter that no backslash escapes.
A backslash escapes any one character that is not a line feed. -/
def delimited (delimiter : Char) : List Char → Option (List Char)
  | [] => none
  | '\\' :: [] => none
  | '\\' :: c :: rest =>
    if c = '\n' then none else (delimited delimiter rest).map ('\\' :: c :: ·)
  | c :: rest =>
    if c = delimiter then some [c] else (delimited delimiter rest).map (c :: ·)

/-- A fixed spelling. -/
def spelled (spelling : String) (text : List Char) : Option (List Char) :=
  if spelling.toList.isPrefixOf text then some spelling.toList else none

/-- A run of characters of a class, if there is at least one. -/
def run (inClass : Char → Bool) (text : List Char) : Option (List Char) :=
  let taken := text.takeWhile inClass
  if taken.isEmpty then none else some taken

/-- A regular expression: text between slashes and the flags after it. -/
def regex : List Char → Option (List Char)
  | '/' :: rest =>
    (delimited '/' rest).map fun body =>
      '/' :: body ++ (rest.drop body.length).takeWhile RegexFlag.isLetter
  | _ => none

/-- A string: text between single quotes. -/
def quoted : List Char → Option (List Char)
  | '\'' :: rest => (delimited '\'' rest).map ('\'' :: ·)
  | _ => none

/-- The digits before the point. A zero stands alone: with a digit after it, there is
no number. -/
def wholePart : List Char → Option (List Char)
  | [] => none
  | '0' :: rest => if (rest.head?.any isDecimalDigit) then none else some ['0']
  | c :: rest =>
    if '1' ≤ c ∧ c ≤ '9' then some (c :: rest.takeWhile isDecimalDigit) else none

/-- The point and the digits after it, or nothing if there is no digit after a point. -/
def fractionPart : List Char → List Char
  | '.' :: rest =>
    let digits := rest.takeWhile isDecimalDigit
    if digits.isEmpty then [] else '.' :: digits
  | _ => []

/-- A number without a sign. -/
def unsignedNumber (text : List Char) : Option (List Char) :=
  (wholePart text).map fun whole => whole ++ fractionPart (text.drop whole.length)

/-- A number. -/
def number : List Char → Option (List Char)
  | '-' :: rest => (unsignedNumber rest).map ('-' :: ·)
  | text => unsignedNumber text

/-- A keyword: a dollar sign, perhaps an exclamation mark, and a name. -/
def keyword : List Char → Option (List Char)
  | '$' :: '!' :: rest => (run isNameChar rest).map fun name => '$' :: '!' :: name
  | '$' :: rest => (run isNameChar rest).map ('$' :: ·)
  | _ => none

/-- A phrase: bare text with a blank or a plus sign after its first character. -/
def phrase (text : List Char) : Option (List Char) :=
  let bare := text.takeWhile fun c => !endsPhrase c
  match bare with
  | first :: others => if !isBlank first && others.any joinsWords then some bare else none
  | [] => none

end Lexeme

namespace Kind

open Lexeme

/-- The characters at the start of a text that form a lexeme of the kind. -/
def lexeme? : Kind → List Char → Option (List Char)
  | .regex => Lexeme.regex
  | .quoted => Lexeme.quoted
  | .phrase => Lexeme.phrase
  | .number => Lexeme.number
  | .boolean => fun text => spelled "true" text <|> spelled "false" text
  | .null => spelled "null"
  | .notEqual => spelled "!="
  | .atLeast => spelled ">="
  | .atMost => spelled "<="
  | .matching => spelled "~="
  | .equal => spelled "="
  | .greater => spelled ">"
  | .less => spelled "<"
  | .or => spelled "^"
  | .and => spelled "&"
  | .openGroup => spelled "("
  | .closeGroup => spelled ")"
  | .openList => spelled "\x7b"
  | .closeList => spelled "\x7d"
  | .comma => spelled ","
  | .bang => spelled "!"
  | .keyword => Lexeme.keyword
  | .word => run isWordChar
  | .blank => run Text.isBlank

end Kind

/-- The first kind in order of priority that has a lexeme at the start of the text, with
that lexeme. -/
def firstLexeme? (text : List Char) : Option (Kind × List Char) :=
  Kind.byPriority.findSome? fun kind => (kind.lexeme? text).map fun lexeme => (kind, lexeme)

end UrlFilter
