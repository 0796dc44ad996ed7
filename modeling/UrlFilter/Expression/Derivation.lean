import UrlFilter.Expression

/-!
# The grammar as a relation

Which tokens write which expression. The relation says nothing of how an expression is
found; it names the productions of the grammar one by one.
-/

namespace UrlFilter

/-- The kinds of tokens that are literals. -/
def Kind.literals : List Kind :=
  [.number, .boolean, .null, .regex, .quoted, .phrase, .word]

/-- The tokens are one literal. -/
inductive Literal.Derives : Literal → List Token → Prop where
  | token {literal : Literal} {token : Token} (isLiteral : token.kind ∈ Kind.literals)
      (reads : Literal.ofToken token = .ok literal) : Literal.Derives literal [token]

/-- The tokens are one field name. -/
inductive FieldDerives : String → List Token → Prop where
  | token {token : Token} (isWord : token.kind = .word) : FieldDerives token.text [token]

/-- The tokens are one or more items with separators between them. -/
inductive SeparatedDerives {α : Type} (separator : Kind) (Item : α → List Token → Prop) :
    α → List α → List Token → Prop where
  | last {item : α} {tokens : List Token} (derived : Item item tokens) :
      SeparatedDerives separator Item item [] tokens
  | more {item next : α} {others : List α} {tokens rest : List Token} {between : Token}
      (derived : Item item tokens) (isSeparator : between.kind = separator)
      (further : SeparatedDerives separator Item next others rest) :
      SeparatedDerives separator Item item (next :: others) (tokens ++ between :: rest)

/-- The tokens are one clause. -/
inductive Clause.Derives : Clause → List Token → Prop where
  | between {lower upper : Literal} {lowerLimit upperLimit : Limit} {field : String}
      {lowerToken lowerLimitToken fieldToken upperLimitToken upperToken : Token}
      (bounds : lowerToken.kind ∈ [Kind.number, .quoted, .phrase])
      (lowerDerived : Literal.Derives lower [lowerToken])
      (isLowerLimit : lowerLimitToken.kind = lowerLimit.kind)
      (fieldDerived : FieldDerives field [fieldToken])
      (isUpperLimit : upperLimitToken.kind = upperLimit.kind)
      (upperDerived : Literal.Derives upper [upperToken]) :
      Clause.Derives (.between lower lowerLimit field upperLimit upper)
        [lowerToken, lowerLimitToken, fieldToken, upperLimitToken, upperToken]
  | presence {present : Bool} {field : String} {others : List String} {keyword equal : Token}
      {rest : List Token} (isKeyword : keyword.kind = .keyword)
      (spelling : keyword.text = Clause.presenceKeyword present) (isEqual : equal.kind = .equal)
      (derived : SeparatedDerives .comma FieldDerives field others rest) :
      Clause.Derives (.presence present field others) (keyword :: equal :: rest)
  | within {field : String} {first : Literal} {others : List Literal}
      {fieldToken opening closing : Token} {rest : List Token}
      (fieldDerived : FieldDerives field [fieldToken]) (opens : opening.kind = .openList)
      (derived : SeparatedDerives .comma Literal.Derives first others rest)
      (closes : closing.kind = .closeList) :
      Clause.Derives (.membership field true first others)
        (fieldToken :: opening :: rest ++ [closing])
  | outside {field : String} {first : Literal} {others : List Literal}
      {fieldToken bang opening closing : Token} {rest : List Token}
      (fieldDerived : FieldDerives field [fieldToken]) (isBang : bang.kind = .bang)
      (opens : opening.kind = .openList)
      (derived : SeparatedDerives .comma Literal.Derives first others rest)
      (closes : closing.kind = .closeList) :
      Clause.Derives (.membership field false first others)
        (fieldToken :: bang :: opening :: rest ++ [closing])
  | comparison {field : String} {comparator : Comparator} {operand : Literal}
      {fieldToken comparatorToken operandToken : Token}
      (fieldDerived : FieldDerives field [fieldToken])
      (compares : comparatorToken.kind = comparator.kind)
      (operandDerived : Literal.Derives operand [operandToken]) :
      Clause.Derives (.comparison field comparator operand)
        [fieldToken, comparatorToken, operandToken]

mutual

/-- The tokens are one term. -/
inductive Term.Derives : Term → List Token → Prop where
  | clause {clause : Clause} {tokens : List Token} (derived : clause.Derives tokens) :
      Term.Derives (.clause clause) tokens
  | group {inside : Disjunction} {opening closing : Token} {tokens : List Token}
      (opens : opening.kind = .openGroup) (derived : Disjunction.Derives inside tokens)
      (closes : closing.kind = .closeGroup) :
      Term.Derives (.group inside) (opening :: tokens ++ [closing])

/-- The tokens are one conjunction. -/
inductive Conjunction.Derives : Conjunction → List Token → Prop where
  | single {term : Term} {tokens : List Token} (derived : Term.Derives term tokens) :
      Conjunction.Derives (.single term) tokens
  | and {term : Term} {rest : Conjunction} {tokens restTokens : List Token} {between : Token}
      (derived : Term.Derives term tokens) (isAnd : between.kind = .and)
      (further : Conjunction.Derives rest restTokens) :
      Conjunction.Derives (.and term rest) (tokens ++ between :: restTokens)

/-- The tokens are one disjunction. -/
inductive Disjunction.Derives : Disjunction → List Token → Prop where
  | single {conjunction : Conjunction} {tokens : List Token}
      (derived : Conjunction.Derives conjunction tokens) :
      Disjunction.Derives (.single conjunction) tokens
  | or {conjunction : Conjunction} {rest : Disjunction} {tokens restTokens : List Token}
      {between : Token} (derived : Conjunction.Derives conjunction tokens)
      (isOr : between.kind = .or) (further : Disjunction.Derives rest restTokens) :
      Disjunction.Derives (.or conjunction rest) (tokens ++ between :: restTokens)

end

end UrlFilter
