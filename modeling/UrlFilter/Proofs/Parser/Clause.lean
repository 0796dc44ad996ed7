import UrlFilter.Proofs.Parser.Language

/-!
# Recognizing clauses

Each form of a clause has its own first tokens, so the parser that is chosen by them
recognizes all forms.
-/

namespace UrlFilter

/-- The clause ends before the tokens: a list of fields goes on after a comma. -/
def Clause.Stops : Clause → List Token → Prop
  | .presence _ _ _, rest => ¬ StartsWith .comma rest
  | _, _ => True

/-- Only tokens of literal kinds are read as literals. -/
theorem Literal.isLiteral_of_ofToken {token : Token} {literal : Literal}
    (reads : Literal.ofToken token = .ok literal) : token.kind ∈ Kind.literals := by
  unfold Literal.ofToken at reads
  cases isKind : token.kind <;> simp_all [Kind.literals]

namespace Parser

variable {bounds : Bounds} {size : Nat} {before after : Cursor}

theorem literal_eq_ok {found : Literal} :
    literal bounds before = .ok found after ↔
      ∃ token, Literal.ofToken token = .ok found ∧ before.Passes [token] [] after := by
  simp only [literal, bind_eq_ok, consumeAny_eq_ok]
  constructor
  · rintro ⟨token, middle, passes, success⟩
    cases reads : Literal.ofToken token with
    | error failure => simp [reads, throw_eq_ok] at success
    | ok read =>
      simp only [reads, pure_eq_ok] at success
      obtain ⟨rfl, rfl⟩ := success
      exact ⟨token, reads, passes⟩
  · rintro ⟨token, reads, passes⟩
    exact ⟨token, after, passes, by simp only [reads, pure_eq_ok, and_self]⟩

theorem field_eq_ok {found : String} :
    field bounds before = .ok found after ↔
      ∃ token : Token, token.kind = .word ∧ token.text = found ∧
        before.Passes [token] [] after := by
  simp only [field, bind_eq_ok, consume_eq_ok, pure_eq_ok]
  constructor
  · rintro ⟨token, middle, ⟨isWord, passes⟩, rfl, rfl⟩
    exact ⟨token, isWord, rfl, passes⟩
  · rintro ⟨token, isWord, rfl, passes⟩
    exact ⟨token, after, ⟨isWord, passes⟩, rfl, rfl⟩

/-- Literals are recognized. -/
theorem literal_recognizes :
    (literal bounds).Recognizes bounds size (.plain Literal.Derives) := by
  intro before after found _
  rw [literal_eq_ok]
  constructor
  · rintro ⟨token, reads, passes⟩
    exact ⟨[token], .token (Literal.isLiteral_of_ofToken reads) reads, .inl rfl, passes, trivial⟩
  · rintro ⟨_, ⟨_, reads⟩, _, passes, _⟩
    exact ⟨_, reads, passes⟩

/-- Field names are recognized. -/
theorem field_recognizes :
    (field bounds).Recognizes bounds size (.plain FieldDerives) := by
  intro before after found _
  rw [field_eq_ok]
  constructor
  · rintro ⟨token, isWord, rfl, passes⟩
    exact ⟨[token], .token isWord, .inl rfl, passes, trivial⟩
  · rintro ⟨_, ⟨isWord⟩, _, passes, _⟩
    exact ⟨_, isWord, rfl, passes⟩

/-- A list of plain phrases is passed if the tokens derive it and no separator follows. -/
theorem separated_plain_eq_ok {α : Type} {separator : Kind} {item : Parser α}
    {Derives : α → List Token → Prop} {first : α} {others : List α}
    (recognizes : ∀ size, item.Recognizes bounds size (.plain Derives)) :
    separated separator item before = .ok (first, others) after ↔
      ∃ tokens, SeparatedDerives separator Derives first others tokens ∧
        before.Passes tokens [] after ∧ ¬ StartsWith separator after.rest := by
  have flat : ∀ items : List α, (items.map (Language.plain Derives).nesting).foldr max 0 = 0 ∧
      items.flatMap (Language.plain Derives).marks = [] := by
    intro items
    induction items with
    | nil => exact ⟨rfl, rfl⟩
    | cons head rest inductionHypothesis =>
      obtain ⟨depth, marks⟩ := inductionHypothesis
      exact ⟨by rw [List.map_cons, List.foldr_cons, depth]; rfl, by simp [Language.plain]⟩
  rw [separated_recognizes (recognizes _) (fun _ _ _ _ => trivial) _ _ _ (Nat.le_refl _)]
  simp only [Language.separated, (flat _).1, (flat _).2]
  constructor
  · rintro ⟨tokens, derived, _, passes, stopped, _⟩
    exact ⟨tokens, derived, passes, stopped⟩
  · rintro ⟨tokens, derived, passes, stopped⟩
    exact ⟨tokens, derived, .inl rfl, passes, stopped, fun _ _ => trivial⟩

/-- Behind its lower bound a between clause has four more tokens. -/
theorem betweenAfter_eq_ok {lower : Literal} {lowerLimit : Limit} {found : Clause} :
    betweenAfter bounds lower lowerLimit before = .ok found after ↔
      ∃ (lowerLimitToken fieldToken upperLimitToken upperToken : Token) (upperLimit : Limit)
        (upper : Literal), fieldToken.kind = .word ∧ upperLimitToken.kind = upperLimit.kind ∧
        Literal.ofToken upperToken = .ok upper ∧
        found = .between lower lowerLimit fieldToken.text upperLimit upper ∧
        before.Passes [lowerLimitToken, fieldToken, upperLimitToken, upperToken] [] after := by
  simp only [betweenAfter, bind_eq_ok, discard_eq_ok, consumeAny_eq_ok, field_eq_ok]
  constructor
  · rintro ⟨_, afterLowerLimit, ⟨lowerLimitToken, lowerLimitPasses⟩, _, afterField,
      ⟨fieldToken, isWord, rfl, fieldPasses⟩, upperLimitToken, afterUpperLimit, upperLimitPasses,
      success⟩
    cases limit : Limit.ofKind? upperLimitToken.kind with
    | none => simp [limit, refuse_eq_ok] at success
    | some upperLimit =>
      simp only [limit, bind_eq_ok, literal_eq_ok, pure_eq_ok] at success
      obtain ⟨upper, _, ⟨upperToken, reads, upperPasses⟩, rfl, rfl⟩ := success
      exact ⟨lowerLimitToken, fieldToken, upperLimitToken, upperToken, upperLimit, upper, isWord,
        Limit.ofKind?_eq_some_iff.mp limit, reads, rfl,
        lowerLimitPasses.cons (fieldPasses.cons (upperLimitPasses.cons upperPasses))⟩
  · rintro ⟨lowerLimitToken, fieldToken, upperLimitToken, upperToken, upperLimit, upper, isWord,
      isLimit, reads, rfl, passes⟩
    obtain ⟨afterLowerLimit, lowerLimitPasses, passes⟩ := passes.uncons
    obtain ⟨afterField, fieldPasses, passes⟩ := passes.uncons
    obtain ⟨afterUpperLimit, upperLimitPasses, upperPasses⟩ := passes.uncons
    refine ⟨(), afterLowerLimit, ⟨lowerLimitToken, lowerLimitPasses⟩, fieldToken.text, afterField,
      ⟨fieldToken, isWord, rfl, fieldPasses⟩, upperLimitToken, afterUpperLimit,
      upperLimitPasses, ?_⟩
    simp only [Limit.ofKind?_eq_some_iff.mpr isLimit, bind_eq_ok, literal_eq_ok, pure_eq_ok]
    exact ⟨upper, after, ⟨upperToken, reads, upperPasses⟩, rfl, rfl⟩

/-- The kind ahead is that of the next token that is passed. -/
theorem kindAhead_of_passes {token : Token} {tokens : List Token} {marks : List Mark}
    (passes : before.Passes (token :: tokens) marks after) :
    before.kindAhead 0 = some token.kind := by
  simp [Cursor.kindAhead, passes.rest]

/-- A between clause is five tokens of certain kinds. -/
theorem between?_eq_some {found : Clause} :
    between? bounds before = .ok (some found) after ↔
      ∃ (lowerToken lowerLimitToken fieldToken upperLimitToken upperToken : Token)
        (lower upper : Literal) (lowerLimit upperLimit : Limit),
        Literal.ofToken lowerToken = .ok lower ∧ lowerLimitToken.kind = lowerLimit.kind ∧
        fieldToken.kind = .word ∧ upperLimitToken.kind = upperLimit.kind ∧
        Literal.ofToken upperToken = .ok upper ∧
        found = .between lower lowerLimit fieldToken.text upperLimit upper ∧
        before.Passes [lowerToken, lowerLimitToken, fieldToken, upperLimitToken, upperToken] []
          after := by
  simp only [between?, bind_eq_ok, get_eq_ok, literal_eq_ok, kindAhead_eq_ok]
  constructor
  · rintro ⟨_, _, ⟨rfl, rfl⟩, lower, afterLower, ⟨lowerToken, reads, lowerPasses⟩, kind, _,
      ⟨isNext, rfl⟩, success⟩
    cases limit : kind.bind Limit.ofKind? with
    | none =>
      simp only [limit, bind_eq_ok, pure_eq_ok] at success
      obtain ⟨_, _, _, same, _⟩ := success
      cases same
    | some lowerLimit =>
      simp only [limit, bind_eq_ok, pure_eq_ok, betweenAfter_eq_ok] at success
      obtain ⟨_, _, ⟨lowerLimitToken, fieldToken, upperLimitToken, upperToken, upperLimit, upper,
        isWord, isUpperLimit, upperReads, rfl, passes⟩, same, rfl⟩ := success
      cases same
      rw [isNext, kindAhead_of_passes passes, Option.bind_some,
        Limit.ofKind?_eq_some_iff] at limit
      exact ⟨lowerToken, lowerLimitToken, fieldToken, upperLimitToken, upperToken, lower, upper,
        lowerLimit, upperLimit, reads, limit, isWord, isUpperLimit, upperReads, rfl,
        lowerPasses.cons passes⟩
  · rintro ⟨lowerToken, lowerLimitToken, fieldToken, upperLimitToken, upperToken, lower, upper,
      lowerLimit, upperLimit, reads, isLowerLimit, isWord, isUpperLimit, upperReads, rfl, passes⟩
    obtain ⟨afterLower, lowerPasses, passes⟩ := passes.uncons
    refine ⟨before, before, ⟨rfl, rfl⟩, lower, afterLower, ⟨lowerToken, reads, lowerPasses⟩, _, _,
      ⟨rfl, rfl⟩, ?_⟩
    simp only [kindAhead_of_passes passes, Option.bind_some,
      Limit.ofKind?_eq_some_iff.mpr isLowerLimit, bind_eq_ok, pure_eq_ok, betweenAfter_eq_ok]
    exact ⟨_, after, ⟨lowerLimitToken, fieldToken, upperLimitToken, upperToken, upperLimit, upper,
      isWord, isUpperLimit, upperReads, rfl, passes⟩, rfl, rfl⟩

/-- A presence clause is its keyword, an equality sign and a list of fields. -/
theorem presence_eq_ok {found : Clause} :
    presence bounds before = .ok found after ↔
      ∃ (present : Bool) (name : String) (others : List String) (keyword equal : Token)
        (rest : List Token), keyword.kind = .keyword ∧
        keyword.text = Clause.presenceKeyword present ∧ equal.kind = .equal ∧
        SeparatedDerives .comma FieldDerives name others rest ∧
        found = .presence present name others ∧
        before.Passes (keyword :: equal :: rest) [] after ∧ ¬ StartsWith .comma after.rest := by
  simp only [presence, bind_eq_ok, consume_eq_ok]
  constructor
  · rintro ⟨keyword, afterKeyword, ⟨isKeyword, keywordPasses⟩, success⟩
    cases spelling : Clause.ofKeyword? keyword.text with
    | none => simp [spelling, throw_eq_ok] at success
    | some present =>
      simp only [spelling, bind_eq_ok, discard_eq_ok, consume_eq_ok, pure_eq_ok] at success
      obtain ⟨_, afterEqual, ⟨equal, isEqual, equalPasses⟩, ⟨name, others⟩, _, fieldsFound, rfl,
        rfl⟩ := success
      obtain ⟨rest, derived, fieldsPass, stopped⟩ :=
        (separated_plain_eq_ok fun _ => field_recognizes).mp fieldsFound
      exact ⟨present, name, others, keyword, equal, rest, isKeyword,
        Clause.ofKeyword?_eq_some_iff.mp spelling, isEqual, derived, rfl,
        keywordPasses.cons (equalPasses.cons fieldsPass), stopped⟩
  · rintro ⟨present, name, others, keyword, equal, rest, isKeyword, spelling, isEqual, derived,
      rfl, passes, stopped⟩
    obtain ⟨afterKeyword, keywordPasses, passes⟩ := passes.uncons
    obtain ⟨afterEqual, equalPasses, fieldsPass⟩ := passes.uncons
    refine ⟨keyword, afterKeyword, ⟨isKeyword, keywordPasses⟩, ?_⟩
    simp only [Clause.ofKeyword?_eq_some_iff.mpr spelling, bind_eq_ok, discard_eq_ok,
      consume_eq_ok, pure_eq_ok]
    exact ⟨(), afterEqual, ⟨equal, isEqual, equalPasses⟩, (name, others), after,
      (separated_plain_eq_ok fun _ => field_recognizes).mpr ⟨rest, derived, fieldsPass, stopped⟩,
      rfl, rfl⟩

/-- A comparison is three tokens of certain kinds. -/
theorem comparison_eq_ok {found : Clause} :
    comparison bounds before = .ok found after ↔
      ∃ (fieldToken comparatorToken operandToken : Token) (comparator : Comparator)
        (operand : Literal), fieldToken.kind = .word ∧ comparatorToken.kind = comparator.kind ∧
        Literal.ofToken operandToken = .ok operand ∧
        found = .comparison fieldToken.text comparator operand ∧
        before.Passes [fieldToken, comparatorToken, operandToken] [] after := by
  simp only [comparison, bind_eq_ok, field_eq_ok, consumeAny_eq_ok]
  constructor
  · rintro ⟨_, afterField, ⟨fieldToken, isWord, rfl, fieldPasses⟩, comparatorToken,
      afterComparator, comparatorPasses, success⟩
    cases compares : Comparator.ofKind? comparatorToken.kind with
    | none => simp [compares, refuse_eq_ok] at success
    | some comparator =>
      simp only [compares, bind_eq_ok, literal_eq_ok, pure_eq_ok] at success
      obtain ⟨operand, _, ⟨operandToken, reads, operandPasses⟩, rfl, rfl⟩ := success
      exact ⟨fieldToken, comparatorToken, operandToken, comparator, operand, isWord,
        Comparator.ofKind?_eq_some_iff.mp compares, reads, rfl,
        fieldPasses.cons (comparatorPasses.cons operandPasses)⟩
  · rintro ⟨fieldToken, comparatorToken, operandToken, comparator, operand, isWord, compares,
      reads, rfl, passes⟩
    obtain ⟨afterField, fieldPasses, passes⟩ := passes.uncons
    obtain ⟨afterComparator, comparatorPasses, operandPasses⟩ := passes.uncons
    refine ⟨fieldToken.text, afterField, ⟨fieldToken, isWord, rfl, fieldPasses⟩, comparatorToken,
      afterComparator, comparatorPasses, ?_⟩
    simp only [Comparator.ofKind?_eq_some_iff.mpr compares, bind_eq_ok, literal_eq_ok, pure_eq_ok]
    exact ⟨operand, after, ⟨operandToken, reads, operandPasses⟩, rfl, rfl⟩

/-- A membership clause is a field, perhaps an exclamation mark and a list of literals in
braces. -/
theorem membership_eq_ok {found : Clause} :
    membership bounds before = .ok found after ↔
      ∃ (fieldToken opening closing : Token) (afterField afterBang : Cursor) (negated : Bool)
        (first : Literal) (others : List Literal) (rest : List Token),
        fieldToken.kind = .word ∧ before.Passes [fieldToken] [] afterField ∧
        accept .bang afterField = .ok negated afterBang ∧ opening.kind = .openList ∧
        SeparatedDerives .comma Literal.Derives first others rest ∧ closing.kind = .closeList ∧
        found = .membership fieldToken.text (!negated) first others ∧
        afterBang.Passes (opening :: (rest ++ [closing])) [] after := by
  simp only [membership, bind_eq_ok, field_eq_ok, discard_eq_ok, consume_eq_ok, pure_eq_ok]
  constructor
  · rintro ⟨_, afterField, ⟨fieldToken, isWord, rfl, fieldPasses⟩, negated, afterBang, accepted, _,
      afterOpening, ⟨opening, opens, openingPasses⟩, ⟨first, others⟩, afterList, listFound, _, _,
      ⟨closing, closes, closingPasses⟩, rfl, rfl⟩
    obtain ⟨rest, derived, listPasses, _⟩ :=
      (separated_plain_eq_ok fun _ => literal_recognizes).mp listFound
    exact ⟨fieldToken, opening, closing, afterField, afterBang, negated, first, others, rest,
      isWord, fieldPasses, accepted, opens, derived, closes, rfl,
      openingPasses.cons (listPasses.trans closingPasses)⟩
  · rintro ⟨fieldToken, opening, closing, afterField, afterBang, negated, first, others, rest,
      isWord, fieldPasses, accepted, opens, derived, closes, rfl, passes⟩
    obtain ⟨afterOpening, openingPasses, passes⟩ := passes.uncons
    obtain ⟨afterList, listPasses, closingPasses⟩ := passes.splitPlain
    have stopped : ¬ StartsWith .comma afterList.rest := by
      rw [closingPasses.rest]
      simp [closes]
    exact ⟨_, afterField, ⟨fieldToken, isWord, rfl, fieldPasses⟩, negated, afterBang, accepted, (),
      afterOpening, ⟨opening, opens, openingPasses⟩, (first, others), afterList,
      (separated_plain_eq_ok fun _ => literal_recognizes).mpr ⟨rest, derived, listPasses, stopped⟩,
      (), after, ⟨closing, closes, closingPasses⟩, rfl, rfl⟩

/-- A membership clause starts with a field and a brace, perhaps with an exclamation mark
between them. -/
theorem membership_derives {found : Clause} (success : membership bounds before = .ok found after) :
    ∃ tokens, found.Derives tokens ∧ before.Passes tokens [] after ∧ found.Stops after.rest := by
  obtain ⟨fieldToken, opening, closing, afterField, afterBang, negated, first, others, rest,
    isWord, fieldPasses, accepted, opens, derived, closes, rfl, passes⟩ :=
    membership_eq_ok.mp success
  cases negated with
  | false =>
    obtain ⟨_, rfl⟩ := accept_eq_false.mp accepted
    exact ⟨_, .within (.token isWord) opens derived closes, fieldPasses.cons passes, trivial⟩
  | true =>
    obtain ⟨bang, isBang, bangPasses⟩ := accept_eq_true.mp accepted
    exact ⟨_, .outside (.token isWord) isBang opens derived closes,
      fieldPasses.cons (bangPasses.cons passes), trivial⟩

/-- No presence clause starts with a word. -/
theorem startsPresence_of_word {token : Token} {tokens : List Token} {marks : List Mark}
    (passes : before.Passes (token :: tokens) marks after) (isWord : token.kind = .word) :
    startsPresence before = false := by
  simp [startsPresence, passes.rest, isWord]

/-- The parser that the first tokens choose finds the clause that the tokens write. -/
theorem plainClause_eq_ok {found : Clause} {tokens : List Token} (derived : found.Derives tokens)
    (passes : before.Passes tokens [] after) (stops : found.Stops after.rest)
    (notBetween : (before.kindAhead 0).any startsBetween = false) :
    plainClause bounds before = .ok found after := by
  simp only [plainClause, bind_eq_ok, get_eq_ok]
  refine ⟨before, before, ⟨rfl, rfl⟩, ?_⟩
  cases derived with
  | between isBound =>
    have starts : (before.kindAhead 0).any startsBetween = true := by
      rw [kindAhead_of_passes passes]
      simpa [startsBetween] using isBound
    rw [notBetween] at starts
    cases starts
  | presence isKeyword spelling isEqual fieldsDerived =>
    have starts : startsPresence before = true := by
      simp [startsPresence, passes.rest, isKeyword, Clause.ofKeyword?_eq_some_iff.mpr spelling]
    rw [if_pos starts]
    exact presence_eq_ok.mpr ⟨_, _, _, _, _, _, isKeyword, spelling, isEqual, fieldsDerived, rfl,
      passes, stops⟩
  | within fieldDerived opens listDerived closes =>
    obtain ⟨isWord⟩ := fieldDerived
    have starts : startsMembership before = true := by
      simp [startsMembership, Cursor.kindAhead, passes.rest, isWord, opens]
    rw [startsPresence_of_word passes isWord, starts]
    obtain ⟨afterField, fieldPasses, passes⟩ := passes.uncons
    refine membership_eq_ok.mpr ⟨_, _, _, afterField, afterField, false, _, _, _, isWord,
      fieldPasses, ?_, opens, listDerived, closes, rfl, passes⟩
    rw [accept_eq_false, passes.rest]
    simp [opens]
  | outside fieldDerived isBang opens listDerived closes =>
    obtain ⟨isWord⟩ := fieldDerived
    have starts : startsMembership before = true := by
      simp [startsMembership, Cursor.kindAhead, passes.rest, isWord, isBang, opens]
    rw [startsPresence_of_word passes isWord, starts]
    obtain ⟨afterField, fieldPasses, passes⟩ := passes.uncons
    obtain ⟨afterBang, bangPasses, passes⟩ := passes.uncons
    exact membership_eq_ok.mpr ⟨_, _, _, afterField, afterBang, true, _, _, _, isWord,
      fieldPasses, accept_eq_true.mpr ⟨_, isBang, bangPasses⟩, opens, listDerived, closes, rfl,
      passes⟩
  | comparison fieldDerived isComparator operandDerived =>
    obtain ⟨isWord⟩ := fieldDerived
    obtain ⟨_, reads⟩ := operandDerived
    have notMembership : startsMembership before = false := by
      have opensNone : ∀ comparator : Comparator,
          comparator.kind ≠ .openList ∧ comparator.kind ≠ .bang := by
        intro comparator
        cases comparator <;> decide
      simp [startsMembership, Cursor.kindAhead, passes.rest, isComparator, opensNone]
    rw [startsPresence_of_word passes isWord, notMembership]
    exact comparison_eq_ok.mpr ⟨_, _, _, _, _, isWord, isComparator, reads, rfl, passes⟩

/-- The parser that the first tokens choose finds only clauses. -/
theorem derives_of_plainClause {found : Clause}
    (success : plainClause bounds before = .ok found after) :
    ∃ tokens, found.Derives tokens ∧ before.Passes tokens [] after ∧ found.Stops after.rest := by
  simp only [plainClause, bind_eq_ok, get_eq_ok] at success
  obtain ⟨_, _, ⟨rfl, rfl⟩, success⟩ := success
  split at success
  · obtain ⟨present, name, others, keyword, equal, rest, isKeyword, spelling, isEqual, derived,
      rfl, passes, stopped⟩ := presence_eq_ok.mp success
    exact ⟨_, .presence isKeyword spelling isEqual derived, passes, stopped⟩
  · split at success
    · exact membership_derives success
    · obtain ⟨fieldToken, comparatorToken, operandToken, comparator, operand, isWord, compares,
        reads, rfl, passes⟩ := comparison_eq_ok.mp success
      exact ⟨_, .comparison (.token isWord) compares
        (.token (Literal.isLiteral_of_ofToken reads) reads), passes, trivial⟩

/-- Without a limit after the literal nothing is passed. -/
theorem between?_eq_none (success : between? bounds before = .ok none after) :
    after = before := by
  simp only [between?, bind_eq_ok, get_eq_ok] at success
  obtain ⟨_, _, ⟨rfl, rfl⟩, lower, afterLower, _, kind, atLimit, _, success⟩ := success
  cases limit : kind.bind Limit.ofKind? with
  | some lowerLimit =>
    simp only [limit, bind_eq_ok, pure_eq_ok] at success
    obtain ⟨_, _, _, same, _⟩ := success
    cases same
  | none =>
    simp only [limit, bind_eq_ok, set_eq_ok, pure_eq_ok] at success
    obtain ⟨_, _, rfl, _, rfl⟩ := success
    rfl

/-- Only a between clause starts with a token that may be its lower bound. -/
theorem startsBetween_of_derives {found : Clause} {tokens : List Token}
    (derived : found.Derives tokens) (passes : before.Passes tokens [] after) :
    (before.kindAhead 0).any startsBetween = (found matches .between ..) := by
  cases derived with
  | between isBound =>
    rw [kindAhead_of_passes passes]
    simpa [startsBetween] using isBound
  | presence isKeyword =>
    rw [kindAhead_of_passes passes, isKeyword]
    rfl
  | within fieldDerived | outside fieldDerived | comparison fieldDerived =>
    obtain ⟨isWord⟩ := fieldDerived
    rw [kindAhead_of_passes passes, isWord]
    rfl

/-- A clause is found where tokens write one and what follows does not go on with it. -/
theorem clause_eq_ok {found : Clause} :
    clause bounds before = .ok found after ↔
      ∃ tokens, found.Derives tokens ∧ before.Passes tokens [] after ∧
        found.Stops after.rest := by
  simp only [clause, bind_eq_ok, kindAhead_eq_ok]
  constructor
  · rintro ⟨_, _, ⟨rfl, rfl⟩, success⟩
    split at success
    · next isBound =>
      simp only [bind_eq_ok] at success
      obtain ⟨found?, middle, foundBetween, success⟩ := success
      cases found? with
      | none =>
        rw [between?_eq_none foundBetween] at success
        exact derives_of_plainClause success
      | some between =>
        simp only [pure_eq_ok] at success
        obtain ⟨rfl, rfl⟩ := success
        obtain ⟨lowerToken, lowerLimitToken, fieldToken, upperLimitToken, upperToken, lower, upper,
          lowerLimit, upperLimit, reads, isLowerLimit, isWord, isUpperLimit, upperReads, rfl,
          passes⟩ := between?_eq_some.mp foundBetween
        rw [kindAhead_of_passes passes] at isBound
        refine ⟨_, .between ?_ (.token (Literal.isLiteral_of_ofToken reads) reads) isLowerLimit
          (.token isWord) isUpperLimit
          (.token (Literal.isLiteral_of_ofToken upperReads) upperReads), passes, trivial⟩
        simpa [startsBetween] using isBound
    · exact derives_of_plainClause success
  · rintro ⟨tokens, derived, passes, stops⟩
    refine ⟨_, before, ⟨rfl, rfl⟩, ?_⟩
    have shape := startsBetween_of_derives derived passes
    cases isBound : (before.kindAhead 0).any startsBetween with
    | false =>
      simp only [Bool.false_eq_true, if_false]
      exact plainClause_eq_ok derived passes stops isBound
    | true =>
      rw [isBound] at shape
      cases derived with
      | presence | within | outside | comparison => cases shape
      | between _ lowerDerived isLowerLimit fieldDerived isUpperLimit upperDerived =>
        obtain ⟨_, reads⟩ := lowerDerived
        obtain ⟨isWord⟩ := fieldDerived
        obtain ⟨_, upperReads⟩ := upperDerived
        simp only [if_true, bind_eq_ok]
        exact ⟨_, after, between?_eq_some.mpr ⟨_, _, _, _, _, _, _, _, _, reads, isLowerLimit,
          isWord, isUpperLimit, upperReads, rfl, passes⟩, pure_eq_ok.mpr ⟨rfl, rfl⟩⟩

end Parser

end UrlFilter
