import UrlFilter.Proofs.Expression.Connected
import UrlFilter.Proofs.Grammar

/-!
# What follows an expression

An expression ends where no token follows that goes on with it. So the parser finds the same
expression in all token lists that start with its tokens and have no such token behind them. It
looks at most at the one token behind the expression: what tells the forms of a clause apart stands
in the three tokens that every clause has.
-/

namespace UrlFilter

/-- The term is a presence clause, whose list of fields a comma makes longer. -/
def Term.endsInFields : Term → Bool
  | .clause (.presence _ _ _) => true
  | .clause (.between _ _ _ _ _) | .clause (.membership _ _ _ _) | .clause (.comparison _ _ _)
  | .group _ => false

/-- A token of the kind behind the expression belongs to a longer one. -/
def Disjunction.goesOnWith (expression : Disjunction) (kind : Kind) : Bool :=
  [Kind.and, .or].contains kind || (kind == .comma && expression.lastTerm.endsInFields)

section Stops

variable {rest : List Token}

/-- The last one of the terms is the last term. -/
theorem Conjunction.getLast?_terms (conjunction : Conjunction) :
    conjunction.terms.getLast? = some conjunction.lastTerm := by
  cases conjunction with
  | single term => rfl
  | and term rest => rw [terms, List.getLast?_cons, getLast?_terms rest, lastTerm, Option.getD_some]

/-- A term ends before the tokens unless it is a presence clause and a comma follows. -/
theorem Term.stops_iff {term : Term} :
    term.Stops rest ↔ (StartsWith .comma rest → term.endsInFields = false) := by
  cases term with
  | group => simp [Stops, endsInFields]
  | clause only => cases only <;> simp [Stops, Clause.Stops, endsInFields]

/-- A conjunction stops where no `&` follows and its last term stops. -/
theorem Conjunction.stops_iff {conjunction : Conjunction} :
    conjunction.Stops rest ↔ ¬ StartsWith .and rest ∧ conjunction.lastTerm.Stops rest := by
  simp [Stops, getLast?_terms]

/-- The last of several conjunctions ends in the last term. -/
theorem Disjunction.getLast?_conjunctions (expression : Disjunction) :
    ∃ conjunction, expression.conjunctions.getLast? = some conjunction ∧
      conjunction.lastTerm = expression.lastTerm := by
  cases expression with
  | single conjunction => exact ⟨conjunction, rfl, rfl⟩
  | or first rest =>
    obtain ⟨conjunction, isLast, same⟩ := getLast?_conjunctions rest
    exact ⟨conjunction, by rw [conjunctions, List.getLast?_cons, isLast, Option.getD_some], same⟩

/-- An expression stops where no connector follows and its last term stops. -/
theorem Disjunction.stops_iff {expression : Disjunction} :
    expression.Stops rest ↔
      ¬ StartsWith .or rest ∧ ¬ StartsWith .and rest ∧ expression.lastTerm.Stops rest := by
  obtain ⟨conjunction, isLast, same⟩ := expression.getLast?_conjunctions
  simp [Stops, isLast, Conjunction.stops_iff, same]

/-- An expression ends before the tokens exactly if the first of them does not go on with it. -/
theorem Disjunction.stops_iff_goesOnWith {expression : Disjunction} :
    expression.Stops rest ↔ ∀ next ∈ rest.head?, expression.goesOnWith next.kind = false := by
  rw [stops_iff, Term.stops_iff]
  cases rest with
  | nil => simp
  | cons next others => simp [goesOnWith, and_assoc, and_left_comm]

end Stops

/-- Started in front of the tokens, the parser finds the expression and stops at the position, and
the insights have become those behind it. -/
def FindsExpression (depthLimit : Int) (source : Option String) (tokens : List Token)
    (insights : Insights) (expression : Disjunction) (position : Nat) (after : Insights) : Prop :=
  ∃ cursor, Parser.expression (Bounds.of tokens source depthLimit) (Cursor.start tokens insights) =
      .ok expression cursor ∧ cursor.position = position ∧ cursor.insights = after

section Finds

variable {depthLimit : Int} {source : Option String} {tokens : List Token}
  {insights after : Insights} {expression : Disjunction} {position : Nat}

/-- An expression is found at a position exactly if the tokens in front of it write it and the one
behind it does not go on with it. -/
theorem findsExpression_iff :
    FindsExpression depthLimit source tokens insights expression position after ↔
      position ≤ tokens.length ∧ expression.Derives (tokens.take position) ∧
        expression.NestedWithin depthLimit ∧ after = insights.recordAll expression.marks ∧
        ∀ next ∈ tokens[position]?, expression.goesOnWith next.kind = false := by
  simp only [FindsExpression, Parser.expression_recognizes _ _ _ (Nat.le_refl _),
    ← List.head?_drop, ← Disjunction.stops_iff_goesOnWith]
  constructor
  · rintro ⟨cursor, ⟨used, derived, admitted, passes, stops⟩, rfl, rfl⟩
    have split : tokens = used ++ cursor.rest := passes.rest
    have atEnd : cursor.position = used.length := by
      simp [Cursor.position, passes.passed, Cursor.start]
    rw [atEnd, split, List.take_left, List.drop_left]
    exact ⟨by simp, derived, Disjunction.admits_zero_iff.mp admitted, passes.insights, stops⟩
  · rintro ⟨inside, derived, nested, rfl, stops⟩
    refine ⟨⟨(tokens.take position).reverse, tokens.drop position, 0,
      insights.recordAll expression.marks⟩,
      ⟨_, derived, Disjunction.admits_zero_iff.mpr nested, ?_, stops⟩, ?_, rfl⟩
    · exact ⟨(List.take_append_drop position tokens).symm, by simp [Cursor.start], rfl, rfl⟩
    · simp [Cursor.position, inside]

end Finds

namespace Parser

variable (bounds : Bounds)

/-- The limit behind the literal that comes next. -/
def limitBehind (cursor : Cursor) : Option Limit :=
  match literal bounds cursor with
  | .ok _ behind => (behind.kindAhead 0).bind Limit.ofKind?
  | .error _ _ => none

/-- What tells the forms of a clause apart: whether a lower bound may come next and which limit
stands behind it, and whether a presence clause or a membership clause starts. -/
structure ClauseTests where
  startsBetween : Bool
  limit : Option Limit
  startsPresence : Bool
  startsMembership : Bool

/-- The form of a clause is told apart at the cursor. -/
def clauseTests (cursor : Cursor) : ClauseTests where
  startsBetween := (cursor.kindAhead 0).any startsBetween
  limit := limitBehind bounds cursor
  startsPresence := startsPresence cursor
  startsMembership := startsMembership cursor

/-- The literal is the next token, so the limit is looked for in the one behind that. -/
theorem limitBehind_eq (cursor : Cursor) :
    limitBehind bounds cursor = cursor.rest.head?.bind fun token =>
      match Literal.ofToken token with
      | .ok _ => (cursor.kindAhead 1).bind Limit.ofKind?
      | .error _ => none := by
  cases next : cursor.rest with
  | nil =>
    simp only [limitBehind, literal, bind, EStateM.bind, consumeAny_nil next]
    rfl
  | cons token rest =>
    simp only [limitBehind, literal, bind, EStateM.bind, consumeAny_cons next, List.head?_cons,
      Option.bind_some]
    cases Literal.ofToken token with
    | ok lower =>
      rw [Cursor.kindAhead, next]
      rfl
    | error failure => rfl

/-- The forms of a clause are told apart by the next three tokens. -/
theorem clauseTests_congr {cursor other : Cursor}
    (same : other.rest.take 3 = cursor.rest.take 3) :
    clauseTests bounds other = clauseTests bounds cursor := by
  have token : ∀ ahead < 3, other.rest[ahead]? = cursor.rest[ahead]? := by
    intro ahead near
    rw [← List.getElem?_take_of_lt near, same, List.getElem?_take_of_lt near]
  have kind : ∀ ahead < 3, other.kindAhead ahead = cursor.kindAhead ahead := by
    intro ahead near
    rw [Cursor.kindAhead, Cursor.kindAhead, token ahead near]
  have first : other.rest.head? = cursor.rest.head? := by
    rw [List.head?_eq_getElem?, List.head?_eq_getElem?, token 0 (by decide)]
  have presence : startsPresence other = startsPresence cursor := by
    unfold startsPresence
    cases isOther : other.rest <;> cases isRest : cursor.rest <;> simp_all
  simp only [clauseTests, limitBehind_eq, startsMembership, presence, first, kind 0 (by decide),
    kind 1 (by decide), kind 2 (by decide)]

/-- Where a clause is found, the cursor is not put back: a limit stands behind a lower bound. -/
theorem isSome_limitBehind {clause : Clause} {tokens : List Token} {before behind : Cursor}
    (derived : clause.Derives tokens) (passes : before.Passes tokens [] behind)
    (starts : (before.kindAhead 0).any startsBetween = true) :
    (limitBehind bounds before).isSome = true := by
  have shape := startsBetween_of_derives derived passes
  rw [starts] at shape
  cases derived with
  | between _ lower isLimit =>
    obtain ⟨_, reads⟩ := lower
    simp [limitBehind_eq, passes.rest, reads, Cursor.kindAhead,
      Limit.ofKind?_eq_some_iff.mpr isLimit]
  | presence | within | outside | comparison => cases shape

end Parser

/-- A clause has three tokens or more. -/
theorem Clause.Derives.three_le {clause : Clause} {tokens : List Token}
    (derived : clause.Derives tokens) : 3 ≤ tokens.length := by
  cases derived with
  | between | comparison => simp
  | presence _ _ _ fields =>
    obtain ⟨_, rest, rfl, ⟨_⟩, _⟩ := separatedDerives_iff.mp fields
    simp
  | within | outside => simp

/-- What follows an expression does not change it. In a token list that starts with its tokens it is
found exactly if no token that goes on with it follows, so the tokens behind the one that follows do
not matter. No test in front of a clause looks farther than the clause goes, and the cursor is put
back in front of no literal that a clause starts with. -/
theorem findsExpression_continued {depthLimit : Int} {source : Option String} {tokens : List Token}
    {insights after : Insights} {expression : Disjunction} {position : Nat}
    (found : FindsExpression depthLimit source tokens insights expression position after) :
    (∀ (otherSource : Option String) (other : List Token),
      other.take position = tokens.take position →
        (FindsExpression depthLimit otherSource other insights expression position after ↔
          ∀ next ∈ other[position]?, expression.goesOnWith next.kind = false)) ∧
    (∀ (otherSource : Option String) (other : List Token),
      other.take (position + 1) = tokens.take (position + 1) →
        FindsExpression depthLimit otherSource other insights expression position after) ∧
    ∀ (bounds : Bounds) (clause : Clause) (before behind : Cursor),
      Parser.clause bounds before = .ok clause behind →
        before.position + 3 ≤ behind.position ∧
        ((before.kindAhead 0).any Parser.startsBetween = true →
          (Parser.limitBehind bounds before).isSome = true) ∧
        ∀ other : Cursor, other.rest.take 3 = before.rest.take 3 →
          Parser.clauseTests bounds other = Parser.clauseTests bounds before := by
  obtain ⟨inside, derived, nested, recorded, stops⟩ := findsExpression_iff.mp found
  have continued : ∀ (otherSource : Option String) (other : List Token),
      other.take position = tokens.take position →
        (FindsExpression depthLimit otherSource other insights expression position after ↔
          ∀ next ∈ other[position]?, expression.goesOnWith next.kind = false) := by
    intro otherSource other same
    have otherInside : position ≤ other.length := by
      have lengths := congrArg List.length same
      rw [List.length_take, List.length_take, Nat.min_eq_left inside] at lengths
      omega
    rw [findsExpression_iff, same]
    exact ⟨fun all => all.2.2.2.2, fun otherStops =>
      ⟨otherInside, derived, nested, recorded, otherStops⟩⟩
  refine ⟨continued, ?_, ?_⟩
  · intro otherSource other same
    have shorter : other.take position = tokens.take position := by
      have both := congrArg (List.take position) same
      rwa [List.take_take, List.take_take, Nat.min_eq_left (Nat.le_succ position)] at both
    have next : other[position]? = tokens[position]? := by
      rw [← List.getElem?_take_of_lt (Nat.lt_succ_self position), same,
        List.getElem?_take_of_lt (Nat.lt_succ_self position)]
    rw [continued otherSource other shorter, next]
    exact stops
  · intro bounds clause before behind success
    obtain ⟨used, clauseDerived, passes, _⟩ := Parser.clause_eq_ok.mp success
    have long := clauseDerived.three_le
    refine ⟨?_, Parser.isSome_limitBehind bounds clauseDerived passes,
      fun other same => Parser.clauseTests_congr bounds same⟩
    simp only [Cursor.position, passes.passed, List.length_append, List.length_reverse]
    omega

section Presence

/-- An expression that is one presence clause. -/
def presenceOf (field : String) (others : List String) : Disjunction :=
  .single (.single (.clause (.presence true field others)))

/-- The tokens of a presence clause. -/
def presenceTokens : List Token :=
  [⟨.keyword, "$exists", 0⟩, ⟨.equal, "=", 7⟩, ⟨.word, "a", 8⟩]

/-- A comma and one more field. -/
def furtherField : List Token :=
  [⟨.comma, ",", 9⟩, ⟨.word, "b", 10⟩]

/-- The tokens write the presence of one field. -/
theorem presenceTokens_derived : (presenceOf "a" []).Derives presenceTokens :=
  .single (.single (.clause (.presence rfl rfl rfl
    (.last (@FieldDerives.token ⟨.word, "a", 8⟩ rfl)))))

/-- A presence clause in a group. -/
def presenceGroup : Disjunction :=
  .single (.single (.group (presenceOf "a" [])))

/-- The tokens of a presence clause in a group. -/
def groupTokens : List Token :=
  ⟨.openGroup, "(", 0⟩ :: presenceTokens.map (Token.shift 1) ++ [⟨.closeGroup, ")", 10⟩]

/-- A group ends at its parenthesis, although what stands in it ends in a list of fields. -/
theorem findsExpression_continued_group :
    FindsExpression 1 none groupTokens Insights.empty presenceGroup 5
        (Insights.empty.record ("a", "$exists")) ∧
      (groupTokens ++ furtherField).take 5 = groupTokens.take 5 ∧
      FindsExpression 1 (some "($exists=a),b") (groupTokens ++ furtherField) Insights.empty
        presenceGroup 5 (Insights.empty.record ("a", "$exists")) := by
  have derived : presenceGroup.Derives groupTokens :=
    .single (.single (.group rfl (presenceTokens_derived.shift 1) rfl))
  have found : FindsExpression 1 none groupTokens Insights.empty presenceGroup 5
      (Insights.empty.record ("a", "$exists")) :=
    findsExpression_iff.mpr ⟨by decide, derived, .inr (by decide), rfl,
      by simp [groupTokens, presenceTokens]⟩
  have continued := (findsExpression_continued found).1
  refine ⟨found, rfl, (continued _ (groupTokens ++ furtherField) rfl).mpr ?_⟩
  rintro _ ⟨⟩
  rfl

/-- A comma goes on with a presence clause, although it is no connector: with a comma and a field
behind it another expression is found, farther on. -/
theorem presenceTokens_goOn :
    FindsExpression 100 none presenceTokens Insights.empty (presenceOf "a" []) 3
        (Insights.empty.record ("a", "$exists")) ∧
      (presenceTokens ++ furtherField).take 3 = presenceTokens.take 3 ∧
      (presenceTokens ++ furtherField)[3]? = some ⟨.comma, ",", 9⟩ ∧
      Kind.comma ≠ .and ∧ Kind.comma ≠ .or ∧
      FindsExpression 100 none (presenceTokens ++ furtherField) Insights.empty
        (presenceOf "a" ["b"]) 5
        ((Insights.empty.record ("a", "$exists")).record ("b", "$exists")) ∧
      (presenceOf "a" ["b"]).toNode ≠ (presenceOf "a" []).toNode ∧
      ¬ ∃ (expression : Disjunction) (after : Insights),
        FindsExpression 100 none (presenceTokens ++ furtherField) Insights.empty expression 3
          after := by
  have found : FindsExpression 100 none presenceTokens Insights.empty (presenceOf "a" []) 3
      (Insights.empty.record ("a", "$exists")) :=
    findsExpression_iff.mpr ⟨by decide, presenceTokens_derived, .inl rfl, rfl,
      by simp [presenceTokens]⟩
  have fields : SeparatedDerives .comma FieldDerives "a" ["b"]
      ([⟨.word, "a", 8⟩] ++ ⟨.comma, ",", 9⟩ :: [⟨.word, "b", 10⟩]) :=
    .more (@FieldDerives.token ⟨.word, "a", 8⟩ rfl) rfl
      (.last (@FieldDerives.token ⟨.word, "b", 10⟩ rfl))
  have derived : (presenceOf "a" ["b"]).Derives (presenceTokens ++ furtherField) :=
    .single (.single (.clause (.presence rfl rfl rfl fields)))
  have longer : FindsExpression 100 none (presenceTokens ++ furtherField) Insights.empty
      (presenceOf "a" ["b"]) 5
      ((Insights.empty.record ("a", "$exists")).record ("b", "$exists")) :=
    findsExpression_iff.mpr ⟨by decide, derived, .inl rfl, rfl,
      by simp [presenceTokens, furtherField]⟩
  refine ⟨found, rfl, rfl, by decide, by decide, longer, by decide, ?_⟩
  rintro ⟨expression, after, cursor, atThree, position, _⟩
  obtain ⟨other, atFive, otherPosition, _⟩ := longer
  rw [atThree] at atFive
  cases atFive
  omega

end Presence

end UrlFilter
