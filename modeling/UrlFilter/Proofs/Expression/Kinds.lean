import UrlFilter.Expression.Derivation

/-!
# Kinds of tokens in a clause

Connectors and parentheses stand between clauses and around them, never inside of one.
-/

namespace UrlFilter

/-- The kinds of tokens that make groups. -/
def Kind.parentheses : List Kind :=
  [.openGroup, .closeGroup]

/-- The kinds of tokens that connect terms or make groups of them. -/
def Kind.aroundClauses : List Kind :=
  [.and, .or] ++ parentheses

/-- The tokens of a separated list are those of its items and the separators. -/
theorem SeparatedDerives.forall {α : Type} {Item : α → List Token → Prop} {first : α}
    {others : List α} {tokens : List Token} {Holds : Token → Prop}
    (derived : SeparatedDerives .comma Item first others tokens)
    (items : ∀ item tokens, Item item tokens → ∀ token ∈ tokens, Holds token)
    (commas : ∀ token : Token, token.kind = .comma → Holds token) :
    ∀ token ∈ tokens, Holds token := by
  induction derived with
  | last derived => exact items _ _ derived
  | more derived isSeparator _ inductionHypothesis =>
    rw [List.forall_mem_append, List.forall_mem_cons]
    exact ⟨items _ _ derived, commas _ isSeparator, inductionHypothesis⟩

section Lists

variable {tokens : List Token}

/-- A list of fields is of words and commas. -/
theorem kinds_of_fields {first : String} {others : List String}
    (derived : SeparatedDerives .comma FieldDerives first others tokens) :
    ∀ token ∈ tokens, token.kind ∈ [Kind.word, .comma] := by
  refine derived.forall ?_ (by simp +contextual)
  rintro _ _ ⟨isWord⟩
  simp [isWord]

/-- A list of literals is of literals and commas. -/
theorem kinds_of_literals {first : Literal} {others : List Literal}
    (derived : SeparatedDerives .comma Literal.Derives first others tokens) :
    ∀ token ∈ tokens, token.kind ∈ .comma :: Kind.literals := by
  refine derived.forall ?_ (by simp +contextual)
  rintro _ _ ⟨isLiteral, _⟩
  simpa using .inr isLiteral

end Lists

section Clauses

variable {clause : Clause} {tokens : List Token}

/-- The token is a literal. -/
theorem Literal.Derives.kind {literal : Literal} {token : Token}
    (derived : literal.Derives [token]) : token.kind ∈ Kind.literals := by
  obtain ⟨isLiteral, _⟩ := derived
  exact isLiteral

/-- The token is a word. -/
theorem FieldDerives.kind {field : String} {token : Token} (derived : FieldDerives field [token]) :
    token.kind = .word := by
  obtain ⟨isWord⟩ := derived
  exact isWord

/-- No connector and no parenthesis stands in a clause. -/
theorem Clause.Derives.kind_notMem (derived : clause.Derives tokens) :
    ∀ token ∈ tokens, token.kind ∉ Kind.aroundClauses := by
  have literal : ∀ kind ∈ .comma :: Kind.literals, kind ∉ Kind.aroundClauses := by decide
  have literals : ∀ {first : Literal} {others : List Literal} {rest : List Token},
      SeparatedDerives .comma Literal.Derives first others rest →
        ∀ token ∈ rest, token.kind ∉ Kind.aroundClauses :=
    fun derived token isToken => literal _ (kinds_of_literals derived token isToken)
  have limit : ∀ limit : Limit, limit.kind ∉ Kind.aroundClauses := by
    intro limit
    cases limit <;> decide
  cases derived with
  | between bounds lower isLowerLimit field isUpperLimit upper =>
    simp only [List.forall_mem_cons, isLowerLimit, isUpperLimit, field.kind]
    exact ⟨literal _ (.tail _ lower.kind), limit _, by decide, limit _,
      literal _ (.tail _ upper.kind), by simp⟩
  | presence isKeyword spelling isEqual fields =>
    simp only [List.forall_mem_cons, isKeyword, isEqual]
    refine ⟨by decide, by decide, fun token isToken => ?_⟩
    have word : ∀ kind ∈ [Kind.word, .comma], kind ∉ Kind.aroundClauses := by decide
    exact word _ (kinds_of_fields fields token isToken)
  | within field opens items closes =>
    simp only [List.cons_append, List.forall_mem_cons, List.forall_mem_append, opens, closes,
      field.kind]
    exact ⟨by decide, by decide, literals items, by decide, by simp⟩
  | outside field isBang opens items closes =>
    simp only [List.cons_append, List.forall_mem_cons, List.forall_mem_append, isBang, opens,
      closes, field.kind]
    exact ⟨by decide, by decide, by decide, literals items, by decide, by simp⟩
  | comparison field compares operand =>
    have comparator : ∀ comparator : Comparator, comparator.kind ∉ Kind.aroundClauses := by
      intro comparator
      cases comparator <;> decide
    simp only [List.forall_mem_cons, compares, field.kind]
    exact ⟨by decide, comparator _, literal _ (.tail _ operand.kind), by simp⟩

end Clauses

end UrlFilter
