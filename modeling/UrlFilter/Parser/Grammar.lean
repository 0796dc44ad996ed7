import UrlFilter.Expression.Tree
import UrlFilter.Parser

/-!
# The grammar of filters

    disjunction := conjunction ("^" conjunction)*
    conjunction := term ("&" term)*
    term        := "(" disjunction ")"
                 | bound ("<" | "<=") field ("<" | "<=") literal
                 | ("$exists" | "$!exists") "=" field ("," field)*
                 | field ["!"] "{" literal ("," literal)* "}"
                 | field comparator literal

At most two tokens after the next one, or the one after a leading literal, decide
between the forms of a term.
-/

namespace UrlFilter.Parser

variable (bounds : Bounds)

/-- Passes a literal. -/
def literal : Parser Literal := do
  let token ← consumeAny bounds
  match Literal.ofToken token with
  | .ok literal => return literal
  | .error failure => throw failure

/-- Passes a field name. -/
def field : Parser String := do
  return (← consume bounds .word).text

/-- A token of the kind may be the lower bound of a between clause. -/
def startsBetween (kind : Kind) : Bool :=
  [Kind.number, .quoted, .phrase].contains kind

/-- Passes the rest of a between clause after its lower bound. -/
def betweenAfter (lower : Literal) (lowerLimit : Limit) : Parser Clause := do
  discard (consumeAny bounds)
  let field ← field bounds
  let token ← consumeAny bounds
  match Limit.ofKind? token.kind with
  | none => refuse .notBetween token
  | some upperLimit =>
    let upper ← literal bounds
    return .between lower lowerLimit field upperLimit upper

/-- Passes a between clause. If no limit follows the literal, the cursor is put back in
front of it. -/
def between? : Parser (Option Clause) := do
  let start ← get
  let lower ← literal bounds
  match (← kindAhead 0).bind Limit.ofKind? with
  | some lowerLimit => return some (← betweenAfter bounds lower lowerLimit)
  | none =>
    set start
    return none

/-- A presence clause starts at the cursor. -/
def startsPresence (cursor : Cursor) : Bool :=
  match cursor.rest with
  | [] => false
  | token :: _ => token.kind = .keyword ∧ (Clause.ofKeyword? token.text).isSome

/-- Passes a presence clause. -/
def presence : Parser Clause := do
  let keyword ← consume bounds .keyword
  match Clause.ofKeyword? keyword.text with
  | none => throw (.keyword keyword.text)
  | some present =>
    discard (consume bounds .equal)
    let (first, others) ← separated .comma (field bounds)
    return .presence present first others

/-- A membership clause starts at the cursor. -/
def startsMembership (cursor : Cursor) : Bool :=
  cursor.kindAhead 0 = some .word ∧
    (cursor.kindAhead 1 = some .openList ∨
      (cursor.kindAhead 1 = some .bang ∧ cursor.kindAhead 2 = some .openList))

/-- Passes a membership clause. -/
def membership : Parser Clause := do
  let field ← field bounds
  let negated ← accept .bang
  discard (consume bounds .openList)
  let (first, others) ← separated .comma (literal bounds)
  discard (consume bounds .closeList)
  return .membership field (!negated) first others

/-- Passes a comparison of a field with a literal. -/
def comparison : Parser Clause := do
  let field ← field bounds
  let token ← consumeAny bounds
  match Comparator.ofKind? token.kind with
  | none => refuse .notComparison token
  | some comparator =>
    let operand ← literal bounds
    return .comparison field comparator operand

/-- Passes a clause that starts with a field or a keyword. -/
def plainClause : Parser Clause := do
  let cursor ← get
  if startsPresence cursor then presence bounds
  else if startsMembership cursor then membership bounds
  else comparison bounds

/-- Passes a clause. -/
def clause : Parser Clause := do
  if (← kindAhead 0).any startsBetween then
    match ← between? bounds with
    | some clause => return clause
    | none => plainClause bounds
  else plainClause bounds

/-- Passes a clause and records what it uses. -/
def recordedClause : Parser Clause := do
  let clause ← clause bounds
  record clause.marks
  return clause

/-- Opens a group, unless as many as the limit allows are open. -/
def openGroup : Parser Unit := do
  let token ← consume bounds .openGroup
  modify fun cursor => { cursor with depth := cursor.depth + 1 }
  if bounds.depthLimit < (← get).depth then refuse (.tooDeep bounds.depthLimit) token

/-- Closes a group. -/
def closeGroup : Parser Unit := do
  discard (consume bounds .closeGroup)
  modify fun cursor => { cursor with depth := cursor.depth - 1 }

/-- Passes a term, given how to pass what stands inside a group. -/
def termOf (inside : Parser Disjunction) : Parser Term := do
  if (← kindAhead 0) = some .openGroup then
    openGroup bounds
    let disjunction ← inside
    closeGroup bounds
    return .group disjunction
  else return .clause (← recordedClause bounds)

/-- Passes a conjunction, given how to pass what stands inside a group. -/
def conjunctionOf (inside : Parser Disjunction) : Parser Conjunction := do
  let (first, others) ← separated .and (termOf bounds inside)
  return .ofTerms first others

/-- Passes a disjunction, given how to pass what stands inside a group. -/
def disjunctionOf (inside : Parser Disjunction) : Parser Disjunction := do
  let (first, others) ← separated .or (conjunctionOf bounds inside)
  return .ofConjunctions first others

/-- Passes what stands inside a group when at most the given number of tokens is left.
Without a token left, a field is missing. -/
def insideWithin : Nat → Parser Disjunction
  | 0 => throw (.grammar (.endOfInput (some .word) bounds.endOffset))
  | tokensLeft + 1 => disjunctionOf bounds (insideWithin tokensLeft)

/-- Passes what stands inside a group. -/
def inside : Parser Disjunction := do
  insideWithin bounds (← get).rest.length

/-- Passes a term. -/
def term : Parser Term :=
  termOf bounds (inside bounds)

/-- Passes a conjunction. -/
def conjunction : Parser Conjunction :=
  conjunctionOf bounds (inside bounds)

/-- Passes a disjunction. -/
def disjunction : Parser Disjunction :=
  disjunctionOf bounds (inside bounds)

/-- Passes a filter expression. -/
def expression : Parser Disjunction :=
  disjunction bounds

end UrlFilter.Parser
