import UrlFilter.Proofs.Failure
import UrlFilter.Proofs.Grammar
import UrlFilter.Proofs.Parser.Viable
import UrlFilter.Proofs.Token.Cover

/-!
# Failures are found in time

A failure at the grammar points at one token of a text or at the end of the text, and the tokens
in front of that place can be completed to an expression. So no failure is found later than it
could be. Some are found earlier: without a limit behind it, the lower bound of a between clause
is blamed itself.
-/

namespace UrlFilter

variable {depthLimit : Int} {source : Option String} {text : String} {tokens : List Token}
  {insights after : Insights} {error : GrammarError}

/-- The details of the failure point at the token with the index, or at the end of the text if
there are as many tokens. -/
def GrammarError.PointsAt (error : GrammarError) (text : String) (tokens : List Token)
    (index : Nat) : Prop :=
  match tokens[index]? with
  | some token => error.details.PointsAt token.offset (some token.text)
  | none => index = tokens.length ∧ error.details.PointsAt text.length none

/-- Details point at one place only. -/
theorem Table.PointsAt.unique {details : Table Value} {offset other : Int}
    {token otherToken : Option String} (points : details.PointsAt offset token)
    (otherPoints : details.PointsAt other otherToken) :
    other = offset ∧ otherToken = token := by
  have sameOffset := otherPoints.offset.symm.trans points.offset
  have sameToken := otherPoints.token.symm.trans points.token
  refine ⟨by simpa using sameOffset, ?_⟩
  cases token <;> cases otherToken <;> simp_all

/-- Later tokens have greater offsets. -/
theorem Token.Tile.increasing {offset : Nat} {covered : List Char}
    (tile : Tile offset covered tokens) :
    tokens.Pairwise fun first second => first.offset < second.offset := by
  refine tile.ordered.imp_of_mem ?_
  intro first second isFirst _ apart
  have nonempty := (tile.split first isFirst).2.1
  have positive : 0 < first.text.length :=
    Nat.pos_of_ne_zero fun isZero => nonempty (String.length_eq_zero_iff.mp isZero)
  rw [Token.stop] at apart
  omega

/-- No two tokens of a text have the same offset. -/
theorem index_unique_of_tokenize (scanned : tokenize text = .ok tokens) {index other : Nat}
    {token otherToken : Token} (isToken : tokens[index]? = some token)
    (isOther : tokens[other]? = some otherToken) (same : otherToken.offset = token.offset) :
    other = index := by
  obtain ⟨scan, reads, _, rfl⟩ := reads_of_tokenize scanned
  obtain ⟨_, _, _, tile, _⟩ := reads.tile
  obtain ⟨inside, rfl⟩ := List.getElem?_eq_some_iff.mp isToken
  obtain ⟨otherInside, rfl⟩ := List.getElem?_eq_some_iff.mp isOther
  have increasing := List.pairwise_iff_getElem.mp tile.increasing
  rcases Nat.lt_trichotomy other index with earlier | rfl | later
  · have less := increasing other index otherInside inside earlier
    omega
  · rfl
  · have less := increasing index other inside otherInside later
    omega

/-- A failure behind some tokens of a text points at their number only. -/
theorem GrammarError.PointsTo.pointsAt_iff {front back : List Token}
    (points : error.PointsTo back) (scanned : tokenize text = .ok (front ++ back))
    (arises : (ParseFailure.grammar error).ArisesIn
      (Bounds.of (front ++ back) (some text) depthLimit) (front ++ back)) {index : Nat} :
    error.PointsAt text (front ++ back) index ↔ index = front.length := by
  unfold PointsAt
  cases points with
  | @endOfInput expected offset =>
    have atEnd : offset = text.length := by
      cases arises with
      | endOfInput => rfl
      | literal isToken unread => cases Literal.notLiteral_of_ofToken unread
    have atOffset := GrammarError.endOfInput_pointsAt expected offset
    rw [atEnd] at atOffset ⊢
    rw [List.append_nil]
    cases isToken : front[index]? with
    | some token =>
      constructor
      · intro pointsAt
        cases (atOffset.unique pointsAt).2
      · rintro rfl
        simp at isToken
    | none => exact ⟨fun pointsAt => pointsAt.1, fun same => ⟨same, atOffset⟩⟩
  | @unexpected objection token rest =>
    have atToken := GrammarError.unexpected_pointsAt objection token
    have isNext : (front ++ token :: rest)[front.length]? = some token := by simp
    cases isOther : (front ++ token :: rest)[index]? with
    | some other =>
      constructor
      · intro pointsAt
        exact index_unique_of_tokenize scanned isNext isOther (atToken.unique pointsAt).1
      · rintro rfl
        rw [isNext] at isOther
        cases isOther
        exact atToken
    | none =>
      constructor
      · rintro ⟨_, pointsAt⟩
        cases (atToken.unique pointsAt).2
      · rintro rfl
        rw [isNext] at isOther
        cases isOther

/-- Where parsing a token list fails at the grammar, the tokens in front of the place are the
beginning of an expression. -/
theorem parseTokens_blames
    (failed : parseTokens depthLimit source tokens insights = .error (.grammar error) after) :
    ∃ front back, tokens = front ++ back ∧ error.PointsTo back ∧
      ∃ (expression : Disjunction) (more : List Token),
        expression.Derives (front ++ more) ∧ expression.NestedWithin depthLimit := by
  simp only [parseTokens, EStateM.run] at failed
  split at failed
  · cases failed
  · next inParser =>
    cases failed
    obtain ⟨front, back, isSplit, points, expression, more, derived, admitted⟩ :=
      Parser.whole_blames error _ inParser
    exact ⟨front, back, isSplit, points, expression, more, derived,
      Disjunction.admits_zero_iff.mp admitted⟩

/-- A failure at the grammar points at one place of the text, which is a token or the end, and so
does its report if it has one. The tokens in front of this place can be completed: some tokens
behind them make a list that is parsed with the same depth limit. -/
theorem parseTokens_viable (scanned : tokenize text = .ok tokens)
    (failed : parseTokens depthLimit (some text) tokens insights =
      .error (.grammar error) after) :
    (∀ report, error.report = .ok report →
      report.errorClass = .grammar ∧ report.details = error.details) ∧
    ∃ index, (∀ other, error.PointsAt text tokens other ↔ other = index) ∧
      ∃ (more : List Token) (expression : Disjunction), ∀ source insights,
        parseTokens depthLimit source (tokens.take index ++ more) insights =
          .ok expression (insights.recordAll expression.marks) := by
  have arises := parseTokens_error failed
  obtain ⟨front, back, rfl, points, expression, more, derived, nested⟩ :=
    parseTokens_blames failed
  refine ⟨?_, front.length, fun other => points.pointsAt_iff scanned arises, more, expression, ?_⟩
  · intro report made
    rw [Report.eq_of_make made]
    exact ⟨rfl, rfl⟩
  · intro source insights
    rw [List.take_left]
    exact parseTokens_eq_ok.mpr ⟨derived, nested, rfl⟩

/-- The tokens of a group whose last term is missing. -/
def cutTokens : List Token :=
  [⟨.openGroup, "(", 0⟩, ⟨.word, "a", 1⟩, ⟨.equal, "=", 2⟩, ⟨.word, "b", 3⟩, ⟨.and, "&", 4⟩,
    ⟨.closeGroup, ")", 5⟩]

/-- The parenthesis is blamed, and a term can be put in front of it. -/
theorem parseTokens_viable_cut :
    tokenize "(a=b&)" = .ok cutTokens ∧
      (∃ (error : GrammarError) (after : Insights),
        parseTokens 1 (some "(a=b&)") cutTokens Insights.empty = .error (.grammar error) after ∧
        error.PointsAt "(a=b&)" cutTokens 5) ∧
      ∃ (more : List Token) (expression : Disjunction), ∀ source insights,
        parseTokens 1 source (cutTokens.take 5 ++ more) insights =
          .ok expression (insights.recordAll expression.marks) := by
  have scanned : tokenize "(a=b&)" = .ok cutTokens := by rfl
  have failed : parseTokens 1 (some "(a=b&)") cutTokens Insights.empty =
      .error (.grammar (.unexpected (.expected .word) ⟨.closeGroup, ")", 5⟩)) _ := rfl
  have pointsAt : GrammarError.PointsAt (.unexpected (.expected .word) ⟨.closeGroup, ")", 5⟩)
      "(a=b&)" cutTokens 5 :=
    GrammarError.unexpected_pointsAt (.expected .word) ⟨.closeGroup, ")", 5⟩
  obtain ⟨_, index, isPlace, completed⟩ := parseTokens_viable scanned failed
  rw [← (isPlace 5).mp pointsAt] at completed
  exact ⟨scanned, ⟨_, _, failed, pointsAt⟩, completed⟩

end UrlFilter
