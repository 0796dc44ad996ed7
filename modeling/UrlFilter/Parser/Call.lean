import UrlFilter.Parser.Grammar

/-!
# Calls of a parser

A parser can also be used one operation at a time. Each operation goes on where the one before it
has stopped, also where that one has failed.
-/

namespace UrlFilter.Parser

/-- An operation of a parser. -/
inductive Call where
  /-- Passes the next token, perhaps only if it is of a kind. -/
  | consume (kind : Option Kind)
  | accept (kind : Kind)
  | expectEnd
  | literal
  | term
  | conjunction
  | disjunction
  | expression
deriving DecidableEq, Repr

namespace Call

/-- The operation, but for its result. -/
def run (bounds : Bounds) : Call → Parser Unit
  | .consume none => discard (consumeAny bounds)
  | .consume (some kind) => discard (Parser.consume bounds kind)
  | .accept kind => discard (Parser.accept kind)
  | .expectEnd => Parser.expectEnd
  | .literal => discard (Parser.literal bounds)
  | .term => discard (Parser.term bounds)
  | .conjunction => discard (Parser.conjunction bounds)
  | .disjunction => discard (Parser.disjunction bounds)
  | .expression => discard (Parser.expression bounds)

/-- The operation passes a phrase of the grammar. -/
def passesPhrase : Call → Bool
  | .literal | .term | .conjunction | .disjunction | .expression => true
  | .consume _ | .accept _ | .expectEnd => false

/-- The cursor behind the operation, whether it succeeds or fails. -/
def leave (bounds : Bounds) (cursor : Cursor) (call : Call) : Cursor :=
  match call.run bounds cursor with
  | .ok _ after => after
  | .error _ after => after

/-- The cursor behind several operations, in order. -/
def leaveAll (bounds : Bounds) (cursor : Cursor) (calls : List Call) : Cursor :=
  calls.foldl (leave bounds) cursor

end Call

end UrlFilter.Parser
