import UrlFilter.Proofs.Parser.Expression
import UrlFilter.Proofs.Parser.Failure

/-!
# Viable prefixes

Where a parser fails at the grammar, the tokens in front of the one to blame are the beginning
of a phrase that the depth limit admits. `Parser.Blames` says so of a parser in the middle of a
phrase, and is inherited by sequences of parsers; `Parser.Expects` says so of a parser for all
phrases of a language, and is inherited by lists and by groups.
-/

namespace UrlFilter

/-- The failure points at the first of the tokens, or at their end if there are none. -/
inductive GrammarError.PointsTo : GrammarError → List Token → Prop where
  | endOfInput {expected : Option Kind} {offset : Int} : PointsTo (.endOfInput expected offset) []
  | unexpected {objection : Objection} {token : Token} {rest : List Token} :
      PointsTo (.unexpected objection token) (token :: rest)

/-- Where some groups are open, the tokens are the beginning of a phrase of the language. -/
def Language.Begins {α : Type} (language : Language α) (bounds : Bounds) (opened : Nat)
    (front : List Token) : Prop :=
  ∃ phrase more, language.Derives phrase (front ++ more) ∧
    bounds.Admits opened (language.nesting phrase)

namespace Parser

variable {α β : Type}

/-- If the parser fails at the grammar, then at one of the tokens or at their end, and what is in
front of that is viable. -/
def Blames (parser : Parser α) (tokens : List Token) (Viable : List Token → Prop)
    (cursor : Cursor) : Prop :=
  ∀ error after, parser cursor = .error (.grammar error) after →
    ∃ front back, tokens = front ++ back ∧ error.PointsTo back ∧ Viable front

/-- From every cursor with at most `size` tokens left, what the parser has in front of the place
of a failure is the beginning of a phrase of the language. -/
def Expects (bounds : Bounds) (size : Nat) (parser : Parser α) (language : Language α) : Prop :=
  ∀ before : Cursor, before.rest.length ≤ size →
    parser.Blames before.rest (language.Begins bounds before.depth) before

end Parser

/-- A beginning of a beginning is one. -/
theorem Language.Begins.of_append {α : Type} {language : Language α} {bounds : Bounds}
    {opened : Nat} {front more : List Token}
    (begins : language.Begins bounds opened (front ++ more)) :
    language.Begins bounds opened front := by
  obtain ⟨phrase, rest, derived, admitted⟩ := begins
  rw [List.append_assoc] at derived
  exact ⟨phrase, more ++ rest, derived, admitted⟩

/-- A literal fails at the grammar only if its token is of another kind. -/
theorem Literal.notLiteral_of_ofToken {token : Token} {error : GrammarError}
    (unread : Literal.ofToken token = .error (.grammar error)) :
    error = .unexpected .notLiteral token := by
  have number : ∀ text, readNumber text ≠ .error (.grammar error) := by
    intro text failed
    unfold readNumber at failed
    split at failed <;> split at failed <;> cases failed
  have regex : ∀ text, readRegex text ≠ .error (.grammar error) := by
    intro text failed
    unfold readRegex at failed
    split at failed <;> cases failed
  unfold ofToken at unread
  cases isKind : token.kind <;> simp_all

namespace Parser

variable {α β : Type} {bounds : Bounds} {size : Nat} {before : Cursor} {tokens passed : List Token}
  {Viable : List Token → Prop}

namespace Blames

variable {parser : Parser α} {next : α → Parser β}

/-- A sequence blames what its parts blame. -/
theorem bind (first : parser.Blames tokens Viable before)
    (second : ∀ found middle, parser before = .ok found middle →
      (next found).Blames tokens Viable middle) :
    (parser >>= next).Blames tokens Viable before := by
  intro error after failed
  rcases bind_eq_error.mp failed with failed | ⟨found, middle, firstFound, failed⟩
  · exact first error after failed
  · exact second found middle firstFound error after failed

/-- A parser that succeeds blames nothing. -/
theorem of_ok {found : α} {after : Cursor} (success : parser before = .ok found after) :
    parser.Blames tokens Viable before := by
  intro error _ failed
  rw [success] at failed
  cases failed

/-- A failure that is not one at the grammar blames nothing. -/
theorem of_error {failure : ParseFailure} {after : Cursor}
    (failed : parser before = .error failure after) (other : ∀ error, failure ≠ .grammar error) :
    parser.Blames tokens Viable before := by
  intro error _ again
  rw [failed] at again
  cases again
  exact absurd rfl (other error)

/-- What a parser blames does not depend on whether its result is needed. -/
theorem discard (blames : parser.Blames tokens Viable before) :
    (discard parser).Blames tokens Viable before := by
  intro error after failed
  rw [discard_eq_bind] at failed
  exact blames.bind (fun _ _ _ => .of_ok rfl) error after failed

end Blames

/-- A result that is given blames nothing. -/
theorem pure_blames (value : α) : (pure value : Parser α).Blames tokens Viable before :=
  .of_ok rfl

/-- The next token is blamed if it is not taken. -/
theorem blames_next {parser : Parser α} {error : GrammarError} {back : List Token}
    (failed : parser before = .error (.grammar error) before) (reached : tokens = passed ++ back)
    (points : error.PointsTo back) (viable : Viable passed) :
    parser.Blames tokens Viable before := by
  intro _ _ again
  rw [failed] at again
  cases again
  exact ⟨passed, back, reached, points, viable⟩

section Tokens

variable {kind : Kind}

/-- If the next token is missing, the end of the tokens is blamed. -/
theorem consumeAny_blames (reached : tokens = passed ++ before.rest) (viable : Viable passed) :
    (consumeAny bounds).Blames tokens Viable before := by
  cases next : before.rest with
  | nil =>
    rw [next] at reached
    exact blames_next (consumeAny_nil next) reached .endOfInput viable
  | cons token rest => exact .of_ok (consumeAny_cons next)

/-- If a token of a kind is missing, the one that stands there instead is blamed, or the end. -/
theorem consume_blames (reached : tokens = passed ++ before.rest) (viable : Viable passed) :
    (consume bounds kind).Blames tokens Viable before := by
  cases next : before.rest with
  | nil =>
    rw [next] at reached
    exact blames_next (consume_nil next) reached .endOfInput viable
  | cons token rest =>
    rw [next] at reached
    have outcome := @consume_cons before bounds kind token rest next
    split at outcome
    · exact .of_ok outcome
    · exact blames_next outcome reached .unexpected viable

/-- Trying a token of a kind blames nothing. -/
theorem accept_blames : (accept kind).Blames tokens Viable before := by
  cases next : before.rest with
  | nil => exact .of_ok (accept_nil next)
  | cons token rest =>
    have outcome := @accept_cons before kind token rest next
    split at outcome <;> exact .of_ok outcome

/-- If the tokens do not end, the next one of them is blamed. -/
theorem expectEnd_blames (reached : tokens = passed ++ before.rest) (viable : Viable passed) :
    expectEnd.Blames tokens Viable before := by
  cases next : before.rest with
  | nil => exact .of_ok (expectEnd_nil next)
  | cons token rest =>
    rw [next] at reached
    exact blames_next (expectEnd_cons next) reached .unexpected viable

/-- A token that has just been passed may be refused. -/
theorem refuse_blames {objection : Objection} {token : Token} {back : List Token}
    (reached : tokens = passed ++ token :: back) (viable : Viable passed) :
    (refuse objection token : Parser α).Blames tokens Viable before :=
  blames_next rfl reached .unexpected viable

/-- If a literal is missing, the token that stands there instead is blamed. A token that cannot be
read blames nothing at the grammar. -/
theorem literal_blames (reached : tokens = passed ++ before.rest) (viable : Viable passed) :
    (literal bounds).Blames tokens Viable before := by
  refine (consumeAny_blames reached viable).bind ?_
  intro token middle found
  have passes := consumeAny_eq_ok.mp found
  rw [passes.rest] at reached
  cases reads : Literal.ofToken token with
  | ok read => exact pure_blames read
  | error failure =>
    cases failure with
    | grammar error =>
      rw [Literal.notLiteral_of_ofToken reads]
      exact refuse_blames reached viable
    | lexical | integer | decimal | flag | keyword => exact .of_error rfl (by simp)

/-- If a field is missing, the token that stands there instead is blamed, or the end. -/
theorem field_blames (reached : tokens = passed ++ before.rest) (viable : Viable passed) :
    (field bounds).Blames tokens Viable before :=
  (consume_blames reached viable).bind fun _ _ _ => pure_blames _

end Tokens

namespace Expects

variable {parser : Parser α} {language : Language α}

/-- Inside of a longer phrase, a parser blames what it blames alone. -/
theorem within (expects : parser.Expects bounds size language) (short : before.rest.length ≤ size)
    (reached : tokens = passed ++ before.rest)
    (viable : ∀ front, language.Begins bounds before.depth front → Viable (passed ++ front)) :
    parser.Blames tokens Viable before := by
  intro error after failed
  obtain ⟨front, back, rest, points, begins⟩ := expects before short error after failed
  exact ⟨passed ++ front, back, by rw [reached, rest, List.append_assoc], points,
    viable front begins⟩

/-- A parser whose results are put into another form expects the phrases in that form. -/
theorem map {image : Language β} (expects : parser.Expects bounds size language) (form : α → β)
    (derives : ∀ phrase tokens, language.Derives phrase tokens → image.Derives (form phrase) tokens)
    (nesting : ∀ phrase, image.nesting (form phrase) = language.nesting phrase) :
    (parser >>= fun phrase => pure (form phrase)).Expects bounds size image := by
  intro before short
  have blames : parser.Blames before.rest (image.Begins bounds before.depth) before := by
    refine expects.within short (List.nil_append _).symm ?_
    rintro front ⟨phrase, more, derived, admitted⟩
    exact ⟨form phrase, more, derives phrase _ derived, by rwa [nesting]⟩
  exact blames.bind fun _ _ _ => pure_blames _

end Expects

section Separated

variable {separator : Kind} {item : Parser α} {language : Language α}

/-- In further items the last one may be unfinished. -/
theorem further_expects (recognizes : item.Recognizes bounds size language)
    (expects : item.Expects bounds size language) (count : Nat) :
    (further separator item count).Expects bounds size (language.further separator) := by
  induction count with
  | zero => exact fun _ _ => pure_blames []
  | succ count inductionHypothesis =>
    intro before short
    refine accept_blames.bind ?_
    intro accepted behind accepting
    cases accepted with
    | false => exact pure_blames []
    | true =>
      obtain ⟨between, isSeparator, passes⟩ := accept_eq_true.mp accepting
      have behindShort := passes.length_single
      have inItem : item.Blames before.rest
          ((language.further separator).Begins bounds before.depth) behind := by
        refine expects.within (by omega) passes.rest ?_
        rintro front ⟨next, more, derived, admitted⟩
        rw [passes.depth] at admitted
        exact ⟨[next], more, furtherDerives_cons.mpr
          ⟨between, front ++ more, [], by simp, isSeparator, derived, rfl⟩,
          Bounds.admits_max.mpr ⟨admitted, .inl rfl⟩⟩
      refine inItem.bind ?_
      intro next middle found
      obtain ⟨nextTokens, nextDerived, nextAdmitted, nextPasses, _⟩ :=
        (recognizes _ _ _ (by omega)).mp found
      have middleShort := nextPasses.length_rest
      rw [passes.depth] at nextAdmitted
      have inOthers : (further separator item count).Blames before.rest
          ((language.further separator).Begins bounds before.depth) middle := by
        refine inductionHypothesis.within (by omega) (passes.cons nextPasses).rest ?_
        rintro front ⟨others, more, derived, admitted⟩
        rw [nextPasses.depth, passes.depth] at admitted
        exact ⟨next :: others, more, furtherDerives_cons.mpr
          ⟨between, nextTokens, front ++ more, by simp, isSeparator, nextDerived, derived⟩,
          Bounds.admits_max.mpr ⟨nextAdmitted, admitted⟩⟩
      exact inOthers.bind fun _ _ _ => pure_blames _

/-- In a list with separators the last item may be unfinished. -/
theorem separated_expects (recognizes : item.Recognizes bounds size language)
    (expects : item.Expects bounds size language) :
    (separated separator item).Expects bounds size (language.separated separator) := by
  intro before short
  have inFirst : item.Blames before.rest
      ((language.separated separator).Begins bounds before.depth) before := by
    refine expects.within short (List.nil_append _).symm ?_
    rintro front ⟨first, more, derived, admitted⟩
    exact ⟨(first, []), more, .last derived, Bounds.admits_max.mpr ⟨admitted, .inl rfl⟩⟩
  refine inFirst.bind ?_
  intro first middle found
  obtain ⟨firstTokens, firstDerived, firstAdmitted, firstPasses, _⟩ :=
    (recognizes _ _ _ short).mp found
  have middleShort := firstPasses.length_rest
  have inOthers : (further separator item middle.rest.length).Blames before.rest
      ((language.separated separator).Begins bounds before.depth) middle := by
    refine (further_expects recognizes expects _).within (by omega) firstPasses.rest ?_
    rintro front ⟨others, more, derived, admitted⟩
    rw [firstPasses.depth] at admitted
    exact ⟨(first, others), more, separatedDerives_iff.mpr
      ⟨firstTokens, front ++ more, by simp, firstDerived, derived⟩,
      Bounds.admits_max.mpr ⟨firstAdmitted, admitted⟩⟩
  exact Blames.bind (.of_ok rfl) fun _ _ isCursor => by
    obtain ⟨rfl, rfl⟩ := get_eq_ok.mp isCursor
    exact inOthers.bind fun _ _ _ => pure_blames _

/-- A list of plain phrases may end in front of any of its items. -/
theorem list_blames {Derives : α → List Token → Prop}
    (recognizes : ∀ size, item.Recognizes bounds size (.plain Derives))
    (expects : ∀ size, item.Expects bounds size (.plain Derives))
    (reached : tokens = passed ++ before.rest)
    (viable : ∀ first others front more,
      SeparatedDerives separator Derives first others (front ++ more) → Viable (passed ++ front)) :
    (separated separator item).Blames tokens Viable before := by
  refine (separated_expects (recognizes _) (expects _)).within (Nat.le_refl _) reached ?_
  rintro front ⟨items, more, derived, _⟩
  exact viable items.1 items.2 front more derived

end Separated

end Parser

section Completions

/-- A field with which a clause can be completed. -/
def Token.anyField : Token :=
  ⟨.word, "a", 0⟩

/-- A limit with which a between clause can be completed. -/
def Token.anyLimit : Token :=
  ⟨.less, "<", 0⟩

/-- An equality sign with which a clause can be completed. -/
def Token.anyEqual : Token :=
  ⟨.equal, "=", 0⟩

/-- A literal with which a clause can be completed. -/
def Token.anyLiteral : Token :=
  ⟨.null, "null", 0⟩

/-- A brace with which a list of literals can be opened. -/
def Token.anyListStart : Token :=
  ⟨.openList, "\x7b", 0⟩

/-- A brace with which a list of literals can be completed. -/
def Token.anyListEnd : Token :=
  ⟨.closeList, "\x7d", 0⟩

/-- A parenthesis with which a group can be completed. -/
def Token.anyGroupEnd : Token :=
  ⟨.closeGroup, ")", 0⟩

/-- The spare field is a word. -/
theorem Token.anyField_kind : anyField.kind = .word :=
  rfl

/-- The spare limit writes a strict one. -/
theorem Token.anyLimit_kind : anyLimit.kind = Limit.strict.kind :=
  rfl

/-- The spare equality sign compares for equality. -/
theorem Token.anyEqual_kind : anyEqual.kind = Comparator.equal.kind :=
  rfl

/-- The spare opening brace opens a list. -/
theorem Token.anyListStart_kind : anyListStart.kind = .openList :=
  rfl

/-- The spare closing brace closes a list. -/
theorem Token.anyListEnd_kind : anyListEnd.kind = .closeList :=
  rfl

/-- The spare parenthesis closes a group. -/
theorem Token.anyGroupEnd_kind : anyGroupEnd.kind = .closeGroup :=
  rfl

/-- The spare field writes a field. -/
theorem Token.anyField_derives : FieldDerives anyField.text [anyField] :=
  .token anyField_kind

/-- The spare literal writes a literal. -/
theorem Token.anyLiteral_derives : Literal.Derives .null [anyLiteral] :=
  .token (by decide) rfl

end Completions

namespace Clause

variable {bounds : Bounds} {opened : Nat} {fieldToken : Token} {front more : List Token}

/-- What is in front of a part of a clause is the beginning of a clause. -/
theorem Derives.begins {clause : Clause} (derived : clause.Derives (front ++ more)) :
    language.Begins bounds opened front :=
  ⟨clause, more, derived, .inl rfl⟩

/-- A word and an operator begin a comparison. -/
theorem begins_comparison {comparator : Comparator} {comparatorToken : Token}
    (isWord : fieldToken.kind = .word) (compares : comparatorToken.kind = comparator.kind) :
    language.Begins bounds opened [fieldToken, comparatorToken] :=
  Derives.begins (.comparison (.token isWord) compares Token.anyLiteral_derives)

/-- A word alone begins a comparison. -/
theorem begins_field (isWord : fieldToken.kind = .word) :
    language.Begins bounds opened [fieldToken] :=
  (begins_comparison isWord Token.anyEqual_kind).of_append

/-- No tokens at all are the beginning of a clause. -/
theorem begins_nil : language.Begins bounds opened [] :=
  (begins_field Token.anyField_kind).of_append

section Between

variable {lower : Literal} {lowerLimit upperLimit : Limit}
  {lowerToken lowerLimitToken upperLimitToken : Token}
  (isBound : lowerToken.kind ∈ [Kind.number, .quoted, .phrase])
  (lowerDerived : Literal.Derives lower [lowerToken])

include isBound lowerDerived

/-- Everything but the upper bound begins a between clause. -/
theorem begins_upperLimit (isLowerLimit : lowerLimitToken.kind = lowerLimit.kind)
    (isWord : fieldToken.kind = .word) (isUpperLimit : upperLimitToken.kind = upperLimit.kind) :
    language.Begins bounds opened [lowerToken, lowerLimitToken, fieldToken, upperLimitToken] :=
  Derives.begins (.between isBound lowerDerived isLowerLimit (.token isWord) isUpperLimit
    Token.anyLiteral_derives)

/-- A lower bound, a limit and a field begin a between clause. -/
theorem begins_betweenField (isLowerLimit : lowerLimitToken.kind = lowerLimit.kind)
    (isWord : fieldToken.kind = .word) :
    language.Begins bounds opened [lowerToken, lowerLimitToken, fieldToken] :=
  (begins_upperLimit isBound lowerDerived isLowerLimit isWord Token.anyLimit_kind).of_append

/-- A lower bound and a limit begin a between clause. -/
theorem begins_lowerLimit (isLowerLimit : lowerLimitToken.kind = lowerLimit.kind) :
    language.Begins bounds opened [lowerToken, lowerLimitToken] :=
  (begins_betweenField isBound lowerDerived isLowerLimit Token.anyField_kind).of_append

/-- A lower bound alone begins a between clause. -/
theorem begins_lower : language.Begins bounds opened [lowerToken] :=
  (begins_lowerLimit isBound lowerDerived Token.anyLimit_kind).of_append

end Between

section Presence

variable {present : Bool} {keyword equal : Token}

/-- What is in front of a field of its list begins a presence clause. -/
theorem begins_fields {name : String} {others : List String} (isKeyword : keyword.kind = .keyword)
    (spelling : keyword.text = presenceKeyword present) (isEqual : equal.kind = .equal)
    (derived : SeparatedDerives .comma FieldDerives name others (front ++ more)) :
    language.Begins bounds opened ([keyword, equal] ++ front) :=
  Derives.begins (.presence isKeyword spelling isEqual derived)

/-- A keyword alone begins a presence clause. -/
theorem begins_keyword (isKeyword : keyword.kind = .keyword)
    (spelling : keyword.text = presenceKeyword present) :
    language.Begins bounds opened [keyword] :=
  Derives.begins (.presence isKeyword spelling Token.anyEqual_kind (.last Token.anyField_derives))

end Presence

section Membership

/-- The tokens are those of a membership clause in front of its list. -/
inductive LeadsList : List Token → Prop where
  | within {fieldToken : Token} (isWord : fieldToken.kind = .word) : LeadsList [fieldToken]
  | outside {fieldToken bang : Token} (isWord : fieldToken.kind = .word)
      (isBang : bang.kind = .bang) : LeadsList [fieldToken, bang]

variable {lead : List Token} {opening : Token} {first : Literal} {others : List Literal}

/-- What is in front of a literal of its list, or of the end of it, begins a membership clause. -/
theorem begins_list (leads : LeadsList lead) (opens : opening.kind = .openList)
    (derived : SeparatedDerives .comma Literal.Derives first others (front ++ more)) :
    language.Begins bounds opened (lead ++ [opening] ++ front) := by
  cases leads with
  | within isWord =>
    have clause := Clause.Derives.within (.token isWord) opens derived Token.anyListEnd_kind
    exact ⟨_, more ++ [Token.anyListEnd], by simpa [language] using clause, .inl rfl⟩
  | outside isWord isBang =>
    have clause := Clause.Derives.outside (.token isWord) isBang opens derived Token.anyListEnd_kind
    exact ⟨_, more ++ [Token.anyListEnd], by simpa [language] using clause, .inl rfl⟩

/-- A field and perhaps a bang begin a membership clause. -/
theorem begins_lead (leads : LeadsList lead) : language.Begins bounds opened lead := by
  have begins : language.Begins bounds opened (lead ++ [Token.anyListStart] ++ []) :=
    begins_list leads Token.anyListStart_kind (.last Token.anyLiteral_derives)
  rw [List.append_nil] at begins
  exact begins.of_append

end Membership

end Clause

namespace Parser

variable {bounds : Bounds} {size : Nat} {before : Cursor}

section Clauses

variable {opened : Nat}

/-- A field is missing only where one could stand. -/
theorem field_expects : (field bounds).Expects bounds size (.plain FieldDerives) :=
  fun _ _ => field_blames (List.nil_append _).symm
    ⟨_, [Token.anyField], Token.anyField_derives, .inl rfl⟩

/-- A literal is missing only where one could stand. -/
theorem literal_expects : (literal bounds).Expects bounds size (.plain Literal.Derives) :=
  fun _ _ => literal_blames (List.nil_append _).symm
    ⟨.null, [Token.anyLiteral], Token.anyLiteral_derives, .inl rfl⟩

/-- Behind the lower bound of a between clause, the tokens in front of the place of a failure
begin a between clause. -/
theorem betweenAfter_blames {start : Cursor} {lower : Literal} {lowerToken : Token}
    {lowerLimit : Limit} (isBound : lowerToken.kind ∈ [Kind.number, .quoted, .phrase])
    (lowerDerived : Literal.Derives lower [lowerToken])
    (isNext : (before.kindAhead 0).bind Limit.ofKind? = some lowerLimit)
    (passes : start.Passes [lowerToken] [] before) :
    (betweenAfter bounds lower lowerLimit).Blames start.rest
      (Clause.language.Begins bounds opened) before := by
  refine (consumeAny_blames passes.rest (Clause.begins_lower isBound lowerDerived)).discard.bind ?_
  intro _ afterLimit found
  obtain ⟨lowerLimitToken, found⟩ := discard_eq_ok.mp found
  have limitPasses := consumeAny_eq_ok.mp found
  rw [kindAhead_of_passes limitPasses, Option.bind_some, Limit.ofKind?_eq_some_iff] at isNext
  have passes := passes.cons limitPasses
  refine (field_blames passes.rest
    (Clause.begins_lowerLimit isBound lowerDerived isNext)).bind ?_
  intro _ afterField found
  obtain ⟨fieldToken, isWord, rfl, fieldPasses⟩ := field_eq_ok.mp found
  have passes := passes.trans fieldPasses
  have begins : Clause.language.Begins bounds opened _ :=
    Clause.begins_betweenField isBound lowerDerived isNext isWord
  refine (consumeAny_blames passes.rest begins).bind ?_
  intro upperLimitToken afterUpperLimit found
  have upperPasses := consumeAny_eq_ok.mp found
  cases limit : Limit.ofKind? upperLimitToken.kind with
  | none => exact refuse_blames (passes.rest_snoc upperPasses) begins
  | some upperLimit =>
    exact (literal_blames (passes.trans upperPasses).rest (Clause.begins_upperLimit isBound
      lowerDerived isNext isWord (Limit.ofKind?_eq_some_iff.mp limit))).bind
      fun _ _ _ => pure_blames _

/-- Where a between clause is tried, the tokens in front of the place of a failure begin a clause.
-/
theorem between?_blames (isBound : (before.kindAhead 0).any startsBetween = true) :
    (between? bounds).Blames before.rest (Clause.language.Begins bounds opened) before := by
  refine Blames.bind (.of_ok rfl) ?_
  intro _ _ isStart
  obtain ⟨rfl, rfl⟩ := get_eq_ok.mp isStart
  refine (literal_blames (List.nil_append _).symm Clause.begins_nil).bind ?_
  intro lower afterLower found
  obtain ⟨lowerToken, reads, passes⟩ := literal_eq_ok.mp found
  rw [kindAhead_of_passes passes] at isBound
  have lowerDerived : Literal.Derives lower [lowerToken] :=
    .token (Literal.isLiteral_of_ofToken reads) reads
  refine Blames.bind (.of_ok rfl) ?_
  intro kind _ isAhead
  obtain ⟨rfl, rfl⟩ := kindAhead_eq_ok.mp isAhead
  cases isNext : Option.bind _ Limit.ofKind? with
  | none => exact .of_ok rfl
  | some lowerLimit =>
    exact (betweenAfter_blames (by simpa [startsBetween] using isBound) lowerDerived isNext
      passes).bind fun _ _ _ => pure_blames _

/-- Where a presence clause fails, the tokens in front of the place begin one. -/
theorem presence_blames :
    (presence bounds).Blames before.rest (Clause.language.Begins bounds opened) before := by
  refine (consume_blames (List.nil_append _).symm Clause.begins_nil).bind ?_
  intro keyword afterKeyword found
  obtain ⟨isKeyword, passes⟩ := consume_eq_ok.mp found
  cases spelling : Clause.ofKeyword? keyword.text with
  | none => exact .of_error rfl (by simp)
  | some present =>
    rw [Clause.ofKeyword?_eq_some_iff] at spelling
    refine (consume_blames passes.rest
      (Clause.begins_keyword isKeyword spelling)).discard.bind ?_
    intro _ afterEqual found
    obtain ⟨equal, found⟩ := discard_eq_ok.mp found
    obtain ⟨isEqual, equalPasses⟩ := consume_eq_ok.mp found
    refine (list_blames (fun _ => field_recognizes) (fun _ => field_expects)
      (passes.cons equalPasses).rest ?_).bind fun _ _ _ => pure_blames _
    intro _ _ _ _ derived
    exact Clause.begins_fields isKeyword spelling isEqual derived

/-- Where a membership clause fails, the tokens in front of the place begin one. -/
theorem membership_blames :
    (membership bounds).Blames before.rest (Clause.language.Begins bounds opened) before := by
  refine (field_blames (List.nil_append _).symm Clause.begins_nil).bind ?_
  intro _ afterField found
  obtain ⟨fieldToken, isWord, rfl, fieldPasses⟩ := field_eq_ok.mp found
  refine accept_blames.bind ?_
  intro negated afterBang accepted
  obtain ⟨lead, leads, passes⟩ :
      ∃ lead, Clause.LeadsList lead ∧ before.Passes lead [] afterBang := by
    cases negated with
    | false =>
      obtain ⟨_, rfl⟩ := accept_eq_false.mp accepted
      exact ⟨_, .within isWord, fieldPasses⟩
    | true =>
      obtain ⟨bang, isBang, bangPasses⟩ := accept_eq_true.mp accepted
      exact ⟨_, .outside isWord isBang, fieldPasses.trans bangPasses⟩
  refine (consume_blames passes.rest (Clause.begins_lead leads)).discard.bind ?_
  intro _ afterOpening found
  obtain ⟨opening, found⟩ := discard_eq_ok.mp found
  obtain ⟨opens, openingPasses⟩ := consume_eq_ok.mp found
  have passes := passes.trans openingPasses
  have inList : (separated .comma (literal bounds)).Blames before.rest
      (Clause.language.Begins bounds opened) afterOpening :=
    list_blames (fun _ => literal_recognizes) (fun _ => literal_expects) passes.rest
      fun _ _ _ _ derived => Clause.begins_list leads opens derived
  refine inList.bind ?_
  rintro ⟨first, others⟩ afterList found
  obtain ⟨rest, derived, listPasses, _⟩ :=
    (separated_plain_eq_ok fun _ => literal_recognizes).mp found
  rw [← List.append_nil rest] at derived
  exact (consume_blames (passes.trans listPasses).rest
    (Clause.begins_list leads opens derived)).discard.bind fun _ _ _ => pure_blames _

/-- Where a comparison fails, the tokens in front of the place begin one. -/
theorem comparison_blames :
    (comparison bounds).Blames before.rest (Clause.language.Begins bounds opened) before := by
  refine (field_blames (List.nil_append _).symm Clause.begins_nil).bind ?_
  intro _ afterField found
  obtain ⟨fieldToken, isWord, rfl, passes⟩ := field_eq_ok.mp found
  have begins : Clause.language.Begins bounds opened _ := Clause.begins_field isWord
  refine (consumeAny_blames passes.rest begins).bind ?_
  intro comparatorToken afterComparator found
  have comparatorPasses := consumeAny_eq_ok.mp found
  cases compares : Comparator.ofKind? comparatorToken.kind with
  | none => exact refuse_blames (passes.rest_snoc comparatorPasses) begins
  | some comparator =>
    exact (literal_blames (passes.trans comparatorPasses).rest (Clause.begins_comparison isWord
      (Comparator.ofKind?_eq_some_iff.mp compares))).bind fun _ _ _ => pure_blames _

/-- Where a clause that is no between clause fails, the tokens in front of the place begin a
clause. -/
theorem plainClause_blames :
    (plainClause bounds).Blames before.rest (Clause.language.Begins bounds opened) before := by
  refine Blames.bind (.of_ok rfl) ?_
  intro _ _ isCursor
  obtain ⟨rfl, rfl⟩ := get_eq_ok.mp isCursor
  split
  · exact presence_blames
  · split
    · exact membership_blames
    · exact comparison_blames

/-- What is in front of the place where a clause fails is the beginning of a clause, though not
always of one of the form that has been tried. -/
theorem recordedClause_expects :
    (recordedClause bounds).Expects bounds size Clause.language := by
  intro before _
  have inClause : (clause bounds).Blames before.rest
      (Clause.language.Begins bounds before.depth) before := by
    refine Blames.bind (.of_ok rfl) ?_
    intro _ _ isAhead
    obtain ⟨rfl, rfl⟩ := kindAhead_eq_ok.mp isAhead
    split
    · next isBound =>
      refine (between?_blames isBound).bind ?_
      intro found _ isFound
      cases found with
      | none =>
        rw [between?_eq_none isFound]
        exact plainClause_blames
      | some between => exact pure_blames between
    · exact plainClause_blames
  exact inClause.bind fun _ _ _ => Blames.bind (.of_ok rfl) fun _ _ _ => pure_blames _

end Clauses

section Expressions

variable {inner : Parser Disjunction}

/-- No tokens at all are the beginning of a term. -/
theorem Term.begins_nil {opened : Nat} : Term.language.Begins bounds opened [] := by
  obtain ⟨clause, more, derived, admitted⟩ := @Clause.begins_nil bounds opened
  exact ⟨.clause clause, more, .clause derived, admitted⟩

/-- A group that may not be opened is blamed on its parenthesis. -/
theorem openGroup_blames {tokens passed : List Token} {Viable : List Token → Prop}
    (reached : tokens = passed ++ before.rest) (viable : Viable passed) :
    (openGroup bounds).Blames tokens Viable before := by
  refine (consume_blames reached viable).bind ?_
  intro opening middle found
  obtain ⟨_, passes⟩ := consume_eq_ok.mp found
  rw [passes.rest] at reached
  refine Blames.bind (.of_ok rfl) fun _ _ _ => Blames.bind (.of_ok rfl) ?_
  intro _ _ _
  split
  · exact refuse_blames reached viable
  · exact pure_blames ()

/-- Terms are expected if what stands inside groups is. -/
theorem termOf_expects (recognizes : inner.Recognizes bounds size Disjunction.language)
    (expects : inner.Expects bounds size Disjunction.language) :
    (termOf bounds inner).Expects bounds (size + 1) Term.language := by
  intro _ short
  refine Blames.bind (.of_ok rfl) ?_
  intro _ before isAhead
  obtain ⟨rfl, rfl⟩ := kindAhead_eq_ok.mp isAhead
  split
  · refine (openGroup_blames (List.nil_append _).symm Term.begins_nil).bind ?_
    intro _ inGroup found
    obtain ⟨opening, afterOpening, opens, allowed, passes, rfl⟩ := openGroup_eq_ok.mp found
    have openingShort := passes.length_single
    have inside : ∀ front, Disjunction.language.Begins bounds (before.depth + 1) front →
        Term.language.Begins bounds before.depth ([opening] ++ front) := by
      rintro front ⟨disjunction, more, derived, admitted⟩
      have group := Term.Derives.group opens derived Token.anyGroupEnd_kind
      exact ⟨.group disjunction, more ++ [Token.anyGroupEnd],
        by simpa [Term.language] using group, Bounds.admits_succ.mpr ⟨allowed, admitted⟩⟩
    have insideShort : { afterOpening with depth := before.depth + 1 }.rest.length ≤ size := by
      change afterOpening.rest.length ≤ size
      omega
    have inInside : inner.Blames before.rest (Term.language.Begins bounds before.depth)
        { afterOpening with depth := before.depth + 1 } :=
      expects.within insideShort passes.rest inside
    refine inInside.bind ?_
    intro disjunction afterInside found
    obtain ⟨tokens, derived, admitted, insidePasses, _⟩ := (recognizes _ _ _ insideShort).mp found
    have whole : Disjunction.language.Begins bounds (before.depth + 1) tokens :=
      ⟨disjunction, [], by rwa [List.append_nil], admitted⟩
    have reached : before.rest = [opening] ++ tokens ++ afterInside.rest := by
      rw [passes.rest, List.append_assoc, ← insidePasses.rest]
    refine Blames.bind ?_ fun _ _ _ => pure_blames _
    exact (consume_blames reached (inside tokens whole)).discard.bind fun _ _ _ => .of_ok rfl
  · refine (recordedClause_expects.within short (List.nil_append _).symm ?_).bind
      fun _ _ _ => pure_blames _
    rintro front ⟨clause, more, derived, admitted⟩
    exact ⟨.clause clause, more, .clause derived, admitted⟩

/-- Conjunctions are expected if terms are. -/
theorem conjunctionOf_expects
    (recognizes : (termOf bounds inner).Recognizes bounds size Term.language)
    (expects : (termOf bounds inner).Expects bounds size Term.language) :
    (conjunctionOf bounds inner).Expects bounds size Conjunction.language :=
  (separated_expects recognizes expects).map
    (fun items => Conjunction.ofTerms items.1 items.2)
    (fun _ _ => Conjunction.derives_ofTerms.mpr) fun _ => Conjunction.depth_ofTerms _ _

/-- Disjunctions are expected if terms are. -/
theorem disjunctionOf_expects
    (recognizes : (termOf bounds inner).Recognizes bounds size Term.language)
    (expects : (termOf bounds inner).Expects bounds size Term.language) :
    (disjunctionOf bounds inner).Expects bounds size Disjunction.language :=
  (separated_expects (conjunctionOf_recognizes recognizes)
    (conjunctionOf_expects recognizes expects)).map
    (fun items => Disjunction.ofConjunctions items.1 items.2)
    (fun _ _ => Disjunction.derives_ofConjunctions.mpr)
    fun _ => Disjunction.depth_ofConjunctions _ _

/-- What stands inside a group is expected by as many levels as there are tokens. -/
theorem insideWithin_expects (size : Nat) :
    (insideWithin bounds size).Expects bounds size Disjunction.language := by
  induction size with
  | zero =>
    intro before short
    have ended : before.rest = [] := List.length_eq_zero_iff.mp (Nat.le_zero.mp short)
    obtain ⟨term, more, derived, admitted⟩ := @Term.begins_nil bounds before.depth
    refine blames_next rfl (List.nil_append _).symm ?_ ⟨.single (.single term), more,
      .single (.single derived), admitted⟩
    rw [ended]
    exact .endOfInput
  | succ size inductionHypothesis =>
    have recognizes := @insideWithin_recognizes bounds size
    exact disjunctionOf_expects (termOf_recognizes recognizes)
      (termOf_expects recognizes inductionHypothesis)

/-- Expressions are expected. -/
theorem expression_expects : (expression bounds).Expects bounds size Disjunction.language := by
  have inside : (inside bounds).Expects bounds size Disjunction.language := by
    intro before _
    refine Blames.bind (.of_ok rfl) ?_
    intro _ _ isCursor
    obtain ⟨rfl, rfl⟩ := get_eq_ok.mp isCursor
    exact insideWithin_expects _ _ (Nat.le_refl _)
  intro before short
  exact disjunctionOf_expects (termOf_recognizes inside_recognizes)
    (termOf_expects inside_recognizes inside) before (Nat.le_succ_of_le short)

/-- Where parsing a whole token list fails at the grammar, the tokens in front of the place are
the beginning of an expression. -/
theorem whole_blames {tokens : List Token} {insights : Insights} :
    (whole bounds).Blames tokens (Disjunction.language.Begins bounds 0)
      (Cursor.start tokens insights) := by
  refine (expression_expects (Cursor.start tokens insights) (Nat.le_refl _)).bind ?_
  intro expression middle found
  obtain ⟨used, derived, admitted, passes, _⟩ :=
    (expression_recognizes _ _ _ (Nat.le_refl _)).mp found
  have begins : Disjunction.language.Begins bounds 0 used :=
    ⟨expression, [], by rwa [List.append_nil], admitted⟩
  exact (expectEnd_blames passes.rest begins).bind fun _ _ _ => pure_blames _

end Expressions

end Parser

end UrlFilter
