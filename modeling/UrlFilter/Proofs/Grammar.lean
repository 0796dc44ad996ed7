import UrlFilter.Proofs.Expression.Tree
import UrlFilter.Proofs.Parser.Expression

/-!
# Accepted token lists

The parser accepts the token lists that write an expression with its groups nested no
deeper than the limit. There is at most one such expression, and the parser finds it.
-/

namespace UrlFilter

/-- No group is nested deeper than the limit. -/
def Disjunction.NestedWithin (limit : Int) (expression : Disjunction) : Prop :=
  expression.depth = 0 ∨ (expression.depth : Int) ≤ limit

/-- Where no group is open, the groups are admitted that are nested within the limit. -/
theorem Disjunction.admits_zero_iff {bounds : Bounds} {expression : Disjunction} :
    bounds.Admits 0 expression.depth ↔ expression.NestedWithin bounds.depthLimit := by
  simp [Bounds.Admits, NestedWithin]

namespace Parser

variable {bounds : Bounds} {tokens : List Token} {insights : Insights} {expression : Disjunction}

/-- A whole token list is passed exactly if it writes an expression. -/
theorem whole_eq_ok {after : Cursor} :
    whole bounds (Cursor.start tokens insights) = .ok expression after ↔
      expression.Derives tokens ∧ expression.NestedWithin bounds.depthLimit ∧
        after = ⟨tokens.reverse, [], 0, insights.recordAll expression.marks⟩ := by
  have ends : (Cursor.start tokens insights).Passes tokens expression.marks after ∧
      after.rest = [] ↔ after = ⟨tokens.reverse, [], 0, insights.recordAll expression.marks⟩ := by
    constructor
    · rintro ⟨⟨_, passed, depth, recorded⟩, rest⟩
      cases after
      simp_all [Cursor.start]
    · rintro rfl
      exact ⟨⟨by simp [Cursor.start], by simp [Cursor.start], rfl, rfl⟩, rfl⟩
  simp only [whole, bind_eq_ok, expectEnd_eq_ok, pure_eq_ok,
    expression_recognizes _ _ _ (Nat.le_refl _)]
  constructor
  · rintro ⟨_, _, ⟨used, derived, admitted, passes, _⟩, _, _, ⟨ended, rfl⟩, rfl, rfl⟩
    have all : tokens = used := by simpa [Cursor.start, ended] using passes.rest
    rw [← all] at derived passes
    exact ⟨derived, Disjunction.admits_zero_iff.mp admitted, ends.mp ⟨passes, ended⟩⟩
  · rintro ⟨derived, nested, reached⟩
    obtain ⟨passes, ended⟩ := ends.mpr reached
    have stops : expression.Stops after.rest := by
      rw [ended]
      exact expression.stops_of_closed (by simp) (by simp) (by simp)
    exact ⟨_, after, ⟨tokens, derived, Disjunction.admits_zero_iff.mpr nested, passes, stops⟩, (),
      after, ⟨ended, rfl⟩, rfl, rfl⟩

end Parser

section Tokens

variable {depthLimit : Int} {source : Option String} {tokens : List Token}
  {insights after : Insights} {expression : Disjunction}

/-- A token list is parsed exactly if it writes an expression, and then what that expression
uses is recorded. -/
theorem parseTokens_eq_ok :
    parseTokens depthLimit source tokens insights = .ok expression after ↔
      expression.Derives tokens ∧ expression.NestedWithin depthLimit ∧
        after = insights.recordAll expression.marks := by
  simp only [parseTokens, EStateM.run]
  have whole := @Parser.whole_eq_ok (Bounds.of tokens source depthLimit) tokens insights
  constructor
  · intro success
    split at success
    · next found cursor result =>
      cases success
      obtain ⟨derived, nested, rfl⟩ := whole.mp result
      exact ⟨derived, nested, rfl⟩
    · cases success
  · rintro ⟨derived, nested, rfl⟩
    rw [whole.mpr ⟨derived, nested, rfl⟩]

/-- Tokens write at most one expression. -/
theorem Disjunction.Derives.unique {other : Disjunction} (derived : expression.Derives tokens)
    (otherDerived : other.Derives tokens) : other = expression := by
  have parsed : ∀ {found : Disjunction}, found.Derives tokens →
      found.depth ≤ max expression.depth other.depth →
      parseTokens (max expression.depth other.depth : Nat) none tokens Insights.empty =
        .ok found (Insights.empty.recordAll found.marks) := by
    intro found foundDerived shallow
    exact parseTokens_eq_ok.mpr ⟨foundDerived, .inr (by exact_mod_cast shallow), rfl⟩
  have first := parsed derived (Nat.le_max_left _ _)
  have second := parsed otherDerived (Nat.le_max_right _ _)
  rw [first] at second
  cases second
  rfl

/-- The numerals and the regular expressions among the tokens can be read. -/
def Convertible (tokens : List Token) : Prop :=
  ∀ token ∈ tokens, token.kind = .number ∨ token.kind = .regex →
    ∃ literal, Literal.ofToken token = .ok literal

/-- Where numerals and regular expressions can be read, every token of a literal kind is a
literal. -/
theorem Convertible.literal (convertible : Convertible tokens) {token : Token}
    (isToken : token ∈ tokens) (isLiteral : token.kind ∈ Kind.literals) :
    ∃ literal, Literal.Derives literal [token] := by
  have reads : ∃ literal, Literal.ofToken token = .ok literal := by
    have numeral := convertible token isToken
    cases isKind : token.kind <;> simp_all [Kind.literals, Literal.ofToken]
  obtain ⟨literal, reads⟩ := reads
  exact ⟨literal, .token isLiteral reads⟩

end Tokens

namespace Convertible

variable {tokens : List Token}

/-- Tokens of two lists can be read if those of each can. -/
theorem append {others : List Token} (first : Convertible tokens) (second : Convertible others) :
    Convertible (tokens ++ others) :=
  List.forall_mem_append.mpr ⟨first, second⟩

/-- A token and further ones can be read if each of them can. -/
theorem cons {token : Token} (first : Convertible [token]) (rest : Convertible tokens) :
    Convertible (token :: tokens) :=
  first.append rest

/-- A token of another kind need not be read. -/
theorem ofKind {token : Token} {kind : Kind} (isKind : token.kind = kind)
    (plain : kind ∉ [Kind.number, .regex]) : Convertible [token] := by
  intro other isOther isRead
  rw [List.mem_singleton.mp isOther, isKind] at isRead
  exact absurd (by simpa using isRead) plain

end Convertible

section Derivations

variable {tokens : List Token}

/-- The token of a literal can be read. -/
theorem Literal.Derives.convertible {literal : Literal} (derived : literal.Derives tokens) :
    Convertible tokens := by
  cases derived with
  | token isLiteral reads =>
    intro token isToken _
    rw [List.mem_singleton.mp isToken]
    exact ⟨literal, reads⟩

/-- The word of a field can be read. -/
theorem FieldDerives.convertible {field : String} (derived : FieldDerives field tokens) :
    Convertible tokens := by
  cases derived with
  | token isWord => exact .ofKind isWord (by decide)

/-- The tokens of a list can be read if those of its items can. -/
theorem SeparatedDerives.convertible {α : Type} {Item : α → List Token → Prop} {first : α}
    {others : List α}
    (items : ∀ {item : α} {tokens : List Token}, Item item tokens → Convertible tokens)
    (derived : SeparatedDerives .comma Item first others tokens) : Convertible tokens := by
  induction derived with
  | last derived => exact items derived
  | more derived isSeparator _ inductionHypothesis =>
    exact (items derived).append (.cons (.ofKind isSeparator (by decide)) inductionHypothesis)

/-- The tokens of a clause can be read. -/
theorem Clause.Derives.convertible {clause : Clause} (derived : clause.Derives tokens) :
    Convertible tokens := by
  have limit : ∀ limit : Limit, limit.kind ∉ [Kind.number, .regex] := by
    intro limit
    cases limit <;> decide
  have comparator : ∀ comparator : Comparator, comparator.kind ∉ [Kind.number, .regex] := by
    intro comparator
    cases comparator <;> decide
  cases derived with
  | between _ lower isLowerLimit field isUpperLimit upper =>
    exact .cons lower.convertible (.cons (.ofKind isLowerLimit (limit _))
      (.cons field.convertible (.cons (.ofKind isUpperLimit (limit _)) upper.convertible)))
  | presence isKeyword _ isEqual fields =>
    exact .cons (.ofKind isKeyword (by decide)) (.cons (.ofKind isEqual (by decide))
      (fields.convertible FieldDerives.convertible))
  | within field opens literals closes =>
    exact .cons field.convertible (.append (.cons (.ofKind opens (by decide))
      (literals.convertible Literal.Derives.convertible)) (.ofKind closes (by decide)))
  | outside field isBang opens literals closes =>
    exact .cons field.convertible (.cons (.ofKind isBang (by decide))
      (.append (.cons (.ofKind opens (by decide))
        (literals.convertible Literal.Derives.convertible)) (.ofKind closes (by decide))))
  | comparison field compares operand =>
    exact .cons field.convertible (.cons (.ofKind compares (comparator _)) operand.convertible)

end Derivations

mutual

/-- The literals in a term that is written can be read. -/
theorem Term.Derives.convertible {term : Term} {tokens : List Token} :
    Term.Derives term tokens → Convertible tokens
  | .clause derived => derived.convertible
  | .group opens derived closes =>
    .cons (.ofKind opens (by decide)) (derived.convertible.append (.ofKind closes (by decide)))

/-- The literals in a conjunction that is written can be read. -/
theorem Conjunction.Derives.convertible {conjunction : Conjunction} {tokens : List Token} :
    Conjunction.Derives conjunction tokens → Convertible tokens
  | .single derived => derived.convertible
  | .and derived isAnd further =>
    derived.convertible.append (.cons (.ofKind isAnd (by decide)) further.convertible)

/-- The literals in a disjunction that is written can be read. -/
theorem Disjunction.Derives.convertible {disjunction : Disjunction} {tokens : List Token} :
    Disjunction.Derives disjunction tokens → Convertible tokens
  | .single derived => derived.convertible
  | .or derived isOr further =>
    derived.convertible.append (.cons (.ofKind isOr (by decide)) further.convertible)

end

/-- The parser accepts exactly its grammar: a token list is parsed if it writes an expression
whose groups are nested within the limit, and only then. No other expression is written by
the tokens, its tree is built by merging and joining, and it is what the parser returns. -/
theorem parseTokens_iff_derives {tokens : List Token} (convertible : Convertible tokens)
    (depthLimit : Int) (source : Option String) (insights : Insights) :
    (∀ token ∈ tokens, token.kind ∈ Kind.literals → ∃ literal, Literal.Derives literal [token]) ∧
    ((∃ expression after, parseTokens depthLimit source tokens insights = .ok expression after) ↔
      ∃ expression : Disjunction,
        expression.Derives tokens ∧ expression.NestedWithin depthLimit) ∧
    ∀ expression : Disjunction, expression.Derives tokens → expression.NestedWithin depthLimit →
      (∀ other : Disjunction, other.Derives tokens → other = expression) ∧
      expression.build = .ok expression.toNode ∧
      parseTokens depthLimit source tokens insights =
        .ok expression (insights.recordAll expression.marks) := by
  refine ⟨fun token isToken isLiteral => convertible.literal isToken isLiteral, ?_, ?_⟩
  · constructor
    · rintro ⟨expression, after, success⟩
      obtain ⟨derived, nested, _⟩ := parseTokens_eq_ok.mp success
      exact ⟨expression, derived, nested⟩
    · rintro ⟨expression, derived, nested⟩
      exact ⟨expression, _, parseTokens_eq_ok.mpr ⟨derived, nested, rfl⟩⟩
  · intro expression derived nested
    exact ⟨fun other otherDerived => derived.unique otherDerived, expression.build_eq_ok,
      parseTokens_eq_ok.mpr ⟨derived, nested, rfl⟩⟩

/-- The tokens of a between clause in a group. -/
def groupedTokens : List Token :=
  [⟨.openGroup, "(", 0⟩, ⟨.number, "1", 1⟩, ⟨.less, "<", 2⟩, ⟨.word, "a", 3⟩, ⟨.less, "<", 4⟩,
    ⟨.number, "5", 5⟩, ⟨.closeGroup, ")", 6⟩]

/-- A between clause in a group. -/
def grouped : Disjunction :=
  .single (.single (.group (.single (.single (.clause
    (.between (.integer 1) .strict "a" .strict (.integer 5)))))))

/-- The tokens write the group and are parsed where one group may be open. -/
theorem grouped_parsed :
    Convertible groupedTokens ∧ grouped.Derives groupedTokens ∧ grouped.NestedWithin 1 ∧
      parseTokens 1 none groupedTokens Insights.empty =
        .ok grouped (Insights.empty.recordAll grouped.marks) := by
  have one : Literal.ofToken ⟨.number, "1", 1⟩ = .ok (.integer 1) := by rfl
  have five : Literal.ofToken ⟨.number, "5", 5⟩ = .ok (.integer 5) := by rfl
  have name : FieldDerives "a" [⟨.word, "a", 3⟩] := @FieldDerives.token ⟨.word, "a", 3⟩ rfl
  have convertible : Convertible groupedTokens := by
    intro token isToken _
    simp only [groupedTokens, List.mem_cons, List.not_mem_nil, or_false] at isToken
    rcases isToken with rfl | rfl | rfl | rfl | rfl | rfl | rfl <;> simp_all
  have derived : grouped.Derives groupedTokens := by
    have bounded : Clause.Derives (.between (.integer 1) .strict "a" .strict (.integer 5))
        [⟨.number, "1", 1⟩, ⟨.less, "<", 2⟩, ⟨.word, "a", 3⟩, ⟨.less, "<", 4⟩,
          ⟨.number, "5", 5⟩] :=
      .between (by decide) (.token (by decide) one) rfl name rfl (.token (by decide) five)
    exact .single (.single (.group rfl (.single (.single (.clause bounded))) rfl))
  have nested : grouped.NestedWithin 1 := .inr (by decide)
  exact ⟨convertible, derived, nested,
    ((parseTokens_iff_derives convertible 1 none .empty).2.2 grouped derived nested).2.2⟩

end UrlFilter
