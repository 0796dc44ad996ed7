/-!
# Tokens

A token is a piece of filter text with its kind and its place.
-/

namespace UrlFilter

/-- What a token is. -/
inductive Kind where
  | regex
  | quoted
  | phrase
  | number
  | boolean
  | null
  | notEqual
  | atLeast
  | atMost
  | matching
  | equal
  | greater
  | less
  | or
  | and
  | openGroup
  | closeGroup
  | openList
  | closeList
  | comma
  | bang
  | keyword
  | word
  | blank
deriving DecidableEq, Repr

namespace Kind

/-- Every kind, in the order in which the kinds are tried on a text. -/
def byPriority : List Kind :=
  [.regex, .quoted, .number, .boolean, .null, .notEqual, .atLeast, .atMost, .matching, .equal,
    .greater, .less, .or, .and, .openGroup, .closeGroup, .openList, .closeList, .comma, .bang,
    .keyword, .phrase, .word, .blank]

/-- The name of a kind in messages. -/
def name : Kind → String
  | .regex => "regex"
  | .quoted => "string"
  | .phrase => "text"
  | .number => "number"
  | .boolean => "boolean"
  | .null => "null"
  | .notEqual => "op-ne"
  | .atLeast => "op-gte"
  | .atMost => "op-lte"
  | .matching => "op-regex"
  | .equal => "op-eq"
  | .greater => "op-gt"
  | .less => "op-lt"
  | .or => "or"
  | .and => "and"
  | .openGroup => "lparen"
  | .closeGroup => "rparen"
  | .openList => "lbrace"
  | .closeList => "rbrace"
  | .comma => "comma"
  | .bang => "bang"
  | .keyword => "keyword"
  | .word => "word"
  | .blank => "ws"

/-- The kind with a name. -/
def ofName? (name : String) : Option Kind :=
  byPriority.find? fun kind => kind.name = name

end Kind

/-- A piece of filter text. The offset of a token that was read from a text counts the
characters before it; a token that was made otherwise may have any offset. -/
structure Token where
  kind : Kind
  text : String
  offset : Int
deriving DecidableEq, Repr

/-- The offset of the first character after the token. -/
def Token.stop (token : Token) : Int :=
  token.offset + token.text.length

end UrlFilter
