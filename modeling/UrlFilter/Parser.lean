import UrlFilter.Failure
import UrlFilter.Insights

/-!
# Parsers over tokens

A parser moves a cursor forward over a token list and either yields a result or fails.
A failure leaves the cursor where it happened.
-/

namespace UrlFilter

/-- A place in a token list, with what has been found out on the way to it. -/
structure Cursor where
  /-- The tokens before the place, the nearest one first. -/
  passed : List Token
  /-- The tokens after the place, the nearest one first. -/
  rest : List Token
  /-- The number of groups that have been opened and not been closed. -/
  depth : Nat
  /-- What the clauses before the place use. -/
  insights : Insights
deriving DecidableEq

/-- What a parser is told besides the tokens. -/
structure Bounds where
  /-- The offset that a failure at the end of the input points at. -/
  endOffset : Int
  /-- The greatest number of groups that may be open at once. -/
  depthLimit : Int
deriving DecidableEq, Repr

/-- A parser with results of a type. -/
abbrev Parser := EStateM ParseFailure Cursor

/-- A place outside the token list on the side of its start. -/
structure OutOfRange where
deriving DecidableEq, Repr

/-- The wording of the failure. -/
def OutOfRange.message (_ : OutOfRange) : String :=
  "list index out of range"

/-- The offset after the last token. -/
def Token.lastStop (tokens : List Token) : Int :=
  tokens.getLast?.elim 0 Token.stop

/-- The bounds for a token list. Where the text is known, its length is the offset of
the end of the input. -/
def Bounds.of (tokens : List Token) (source : Option String) (depthLimit : Int) : Bounds :=
  ⟨source.elim (Token.lastStop tokens) fun text => text.length, depthLimit⟩

namespace Cursor

/-- The place before the first token. -/
def start (tokens : List Token) (insights : Insights) : Cursor :=
  ⟨[], tokens, 0, insights⟩

/-- All tokens of the list. -/
def tokens (cursor : Cursor) : List Token :=
  cursor.passed.reverse ++ cursor.rest

/-- The number of tokens before the place. -/
def position (cursor : Cursor) : Nat :=
  cursor.passed.length

/-- The token some places further on, if the list reaches there. Places before the start
of the list are counted from its end. -/
def lookAt (cursor : Cursor) (ahead : Int) : Except OutOfRange (Option Token) :=
  let index := cursor.position + ahead
  let wrapped := if index < 0 then index + cursor.tokens.length else index
  if wrapped < 0 then .error ⟨⟩ else .ok cursor.tokens[wrapped.toNat]?

/-- The kind of a token that has not been passed, counted from the nearest one. -/
def kindAhead (cursor : Cursor) (ahead : Nat) : Option Kind :=
  (cursor.rest[ahead]?).map Token.kind

end Cursor

namespace Parser

/-- Passes the next token. -/
def advance (token : Token) (rest : List Token) : Parser Token := do
  modify fun cursor => { cursor with passed := token :: cursor.passed, rest := rest }
  return token

/-- Fails at a token that does not belong where it stands. -/
def refuse {α : Type} (objection : Objection) (token : Token) : Parser α :=
  throw (.grammar (.unexpected objection token))

/-- Passes the next token, whatever it is. -/
def consumeAny (bounds : Bounds) : Parser Token := do
  match (← get).rest with
  | [] => throw (.grammar (.endOfInput none bounds.endOffset))
  | token :: rest => advance token rest

/-- Passes the next token, which has to be of a kind. -/
def consume (bounds : Bounds) (kind : Kind) : Parser Token := do
  match (← get).rest with
  | [] => throw (.grammar (.endOfInput (some kind) bounds.endOffset))
  | token :: rest =>
    if token.kind = kind then advance token rest else refuse (.expected kind) token

/-- Passes the next token if it is of a kind; says whether it is. -/
def accept (kind : Kind) : Parser Bool := do
  match (← get).rest with
  | [] => return false
  | token :: rest =>
    if token.kind = kind then
      discard (advance token rest)
      return true
    else return false

/-- Succeeds at the end of the input only. -/
def expectEnd : Parser Unit := do
  match (← get).rest with
  | [] => return ()
  | token :: _ => refuse .trailing token

/-- The kind of a token that has not been passed, counted from the nearest one. -/
def kindAhead (ahead : Nat) : Parser (Option Kind) := do
  return (← get).kindAhead ahead

/-- Records what a clause uses. -/
def record (marks : List Mark) : Parser Unit :=
  modify fun cursor => { cursor with insights := cursor.insights.recordAll marks }

/-- Further items, each after a separator, at most as many as the count says. -/
def further {α : Type} (separator : Kind) (item : Parser α) : Nat → Parser (List α)
  | 0 => return []
  | count + 1 => do
    if ← accept separator then
      let head ← item
      let tail ← further separator item count
      return head :: tail
    else return []

/-- One or more items with separators between them. Every separator is a token, so
there are no more further items than tokens. -/
def separated {α : Type} (separator : Kind) (item : Parser α) : Parser (α × List α) := do
  let first ← item
  let others ← further separator item (← get).rest.length
  return (first, others)

end Parser

end UrlFilter
