import UrlFilter.Proofs.Grammar

/-!
# Accepted filter texts

A text is a filter exactly if its tokens write an expression. The tree of the filter holds
under a valuation of constraints exactly when the expression that is written does.
-/

namespace UrlFilter

variable {depthLimit : Int} {text : String} {insights after : Insights} {filter : Filter}

/-- A text is read as a filter exactly if it has tokens and these write an expression. -/
theorem parseFilter_eq_ok :
    parseFilter depthLimit text insights = .ok filter after ↔
      ∃ tokens, tokenize text = .ok tokens ∧ filter.tokenCount = tokens.length ∧
        filter.expression.Derives tokens ∧ filter.expression.NestedWithin depthLimit ∧
        after = insights.recordAll filter.expression.marks := by
  unfold parseFilter
  cases scanned : tokenize text with
  | error failure =>
    constructor
    · intro success
      cases success
    · rintro ⟨_, same, _⟩
      cases same
  | ok tokens =>
    simp only [bind, EStateM.bind, pure, EStateM.pure]
    constructor
    · intro success
      split at success
      · next expression middle parsed =>
        cases success
        exact ⟨tokens, rfl, rfl, parseTokens_eq_ok.mp parsed⟩
      · cases success
    · rintro ⟨_, same, counted, parsed⟩
      cases same
      rw [parseTokens_eq_ok.mpr parsed, ← counted]

/-- The tree of a filter means what its text says: the text has tokens, these write one
expression only, and under every valuation the tree holds exactly when that expression
does. -/
theorem parseFilter_holds (accepted : parseFilter depthLimit text insights = .ok filter after) :
    ∃ (tokens : List Token) (expression : Disjunction),
      tokenize text = .ok tokens ∧ expression.Derives tokens ∧
      (∀ other : Disjunction, other.Derives tokens → other = expression) ∧
      expression.build = .ok filter.node ∧
      ∀ valuation, filter.node.holds valuation = expression.holds valuation := by
  obtain ⟨tokens, scanned, _, derived, _, _⟩ := parseFilter_eq_ok.mp accepted
  exact ⟨tokens, filter.expression, scanned, derived, fun other otherDerived =>
    derived.unique otherDerived, filter.expression.build_eq_ok,
    fun valuation => filter.expression.holds_toNode valuation⟩

/-- Both terms constrain one field by one operator, and one of them stands in a group. -/
theorem parseFilter_holds_of_conflict :
    ∃ filter after, parseFilter 1 "a>1&(a>2^b=c)" Insights.empty = .ok filter after ∧
      ∀ valuation, filter.node.holds valuation =
        (valuation ⟨"a", "$gt", .int 1⟩ &&
          (valuation ⟨"a", "$gt", .int 2⟩ || valuation ⟨"b", "$eq", .text "c"⟩)) := by
  have aboveOne : Clause.Derives (.comparison "a" .greater (.integer 1))
      [⟨.word, "a", 0⟩, ⟨.greater, ">", 1⟩, ⟨.number, "1", 2⟩] :=
    .comparison (@FieldDerives.token ⟨.word, "a", 0⟩ rfl) rfl (.token (by decide) (by rfl))
  have aboveTwo : Clause.Derives (.comparison "a" .greater (.integer 2))
      [⟨.word, "a", 5⟩, ⟨.greater, ">", 6⟩, ⟨.number, "2", 7⟩] :=
    .comparison (@FieldDerives.token ⟨.word, "a", 5⟩ rfl) rfl (.token (by decide) (by rfl))
  have isWord : Clause.Derives (.comparison "b" .equal (.word "c"))
      [⟨.word, "b", 9⟩, ⟨.equal, "=", 10⟩, ⟨.word, "c", 11⟩] :=
    .comparison (@FieldDerives.token ⟨.word, "b", 9⟩ rfl) rfl (.token (by decide) (by rfl))
  have group : Disjunction.Derives
      (.or (.single (.clause (.comparison "a" .greater (.integer 2))))
        (.single (.single (.clause (.comparison "b" .equal (.word "c")))))) _ :=
    .or (.single (.clause aboveTwo)) (rfl : Token.kind ⟨.or, "^", 8⟩ = .or)
      (.single (.single (.clause isWord)))
  have written : Disjunction.Derives _ _ :=
    .single (.and (.clause aboveOne) (rfl : Token.kind ⟨.and, "&", 3⟩ = .and)
      (.single (.group (rfl : Token.kind ⟨.openGroup, "(", 4⟩ = .openGroup) group
        (rfl : Token.kind ⟨.closeGroup, ")", 12⟩ = .closeGroup))))
  have scanned : tokenize "a>1&(a>2^b=c)" = .ok
      [⟨.word, "a", 0⟩, ⟨.greater, ">", 1⟩, ⟨.number, "1", 2⟩, ⟨.and, "&", 3⟩,
        ⟨.openGroup, "(", 4⟩, ⟨.word, "a", 5⟩, ⟨.greater, ">", 6⟩, ⟨.number, "2", 7⟩,
        ⟨.or, "^", 8⟩, ⟨.word, "b", 9⟩, ⟨.equal, "=", 10⟩, ⟨.word, "c", 11⟩,
        ⟨.closeGroup, ")", 12⟩] := by
    rfl
  have accepted : parseFilter 1 "a>1&(a>2^b=c)" Insights.empty = .ok ⟨_, 13⟩ _ :=
    parseFilter_eq_ok.mpr ⟨_, scanned, rfl, written, .inr (by decide), rfl⟩
  refine ⟨_, _, accepted, ?_⟩
  obtain ⟨tokens, expression, scannedAgain, _, unique, _, means⟩ := parseFilter_holds accepted
  rw [scanned] at scannedAgain
  cases scannedAgain
  intro valuation
  rw [means valuation, ← unique _ written]
  simp [Disjunction.holds, Conjunction.holds, Term.holds, Clause.holds, Comparator.statedTag,
    Literal.value]

end UrlFilter
