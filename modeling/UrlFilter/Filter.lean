import UrlFilter.Parser.Grammar

/-!
# Filters

A filter text is a whole expression: its tokens are read, the expression is parsed,
and nothing may follow it. What its clauses use is recorded on the way, also when the
text turns out to be no filter.
-/

namespace UrlFilter

/-- A filter text that has been read. -/
structure Filter where
  expression : Disjunction
  /-- The number of tokens of the text. -/
  tokenCount : Nat
deriving DecidableEq

/-- The filter tree. -/
def Filter.node (filter : Filter) : Node :=
  filter.expression.toNode

/-- Parses a whole token list. -/
def Parser.whole (bounds : Bounds) : Parser Disjunction := do
  let expression ← expression bounds
  expectEnd
  return expression

/-- Parses a whole token list as the tokens of a text. -/
def parseTokens (depthLimit : Int) (source : Option String) (tokens : List Token) :
    EStateM ParseFailure Insights Disjunction := fun insights =>
  let bounds := Bounds.of tokens source depthLimit
  match (Parser.whole bounds).run (Cursor.start tokens insights) with
  | .ok expression cursor => .ok expression cursor.insights
  | .error failure cursor => .error failure cursor.insights

/-- Reads a filter text. -/
def parseFilter (depthLimit : Int) (text : String) : EStateM ParseFailure Insights Filter := do
  match tokenize text with
  | .error error => throw (.lexical error)
  | .ok tokens =>
    let expression ← parseTokens depthLimit (some text) tokens
    return ⟨expression, tokens.length⟩

end UrlFilter
