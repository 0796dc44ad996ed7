import UrlFilter.Proofs.Parser.Clause

/-!
# Recognizing expressions

Terms, conjunctions and disjunctions are recognized together, since a term may be a group.
The induction is on the number of tokens that are left, which a group makes smaller.
-/

namespace UrlFilter

/-- The term ends before the tokens. -/
def Term.Stops : Term → List Token → Prop
  | .clause only, rest => only.Stops rest
  | .group _, _ => True

/-- The conjunction ends before the tokens. -/
def Conjunction.Stops (conjunction : Conjunction) (rest : List Token) : Prop :=
  ¬ StartsWith .and rest ∧ ∀ last ∈ conjunction.terms.getLast?, last.Stops rest

/-- The disjunction ends before the tokens. -/
def Disjunction.Stops (disjunction : Disjunction) (rest : List Token) : Prop :=
  ¬ StartsWith .or rest ∧ ∀ last ∈ disjunction.conjunctions.getLast?, last.Stops rest

/-- Any term ends where no comma follows. -/
theorem Term.stops_of_no_comma {rest : List Token} (noComma : ¬ StartsWith .comma rest)
    (term : Term) : term.Stops rest := by
  cases term with
  | group => trivial
  | clause only => cases only with
    | presence => exact noComma
    | between | membership | comparison => trivial

/-- Any disjunction ends where nothing follows that could belong to it. -/
theorem Disjunction.stops_of_closed {rest : List Token} (noOr : ¬ StartsWith .or rest)
    (noAnd : ¬ StartsWith .and rest) (noComma : ¬ StartsWith .comma rest)
    (disjunction : Disjunction) : disjunction.Stops rest :=
  ⟨noOr, fun _ _ => ⟨noAnd, fun last _ => last.stops_of_no_comma noComma⟩⟩

/-- The language of clauses. -/
def Clause.language : Language Clause :=
  ⟨Clause.Derives, Clause.marks, fun _ => 0, Clause.Stops⟩

/-- The language of terms. -/
def Term.language : Language Term :=
  ⟨Term.Derives, Term.marks, Term.depth, Term.Stops⟩

/-- The language of conjunctions. -/
def Conjunction.language : Language Conjunction :=
  ⟨Conjunction.Derives, Conjunction.marks, Conjunction.depth, Conjunction.Stops⟩

/-- The language of disjunctions. -/
def Disjunction.language : Language Disjunction :=
  ⟨Disjunction.Derives, Disjunction.marks, Disjunction.depth, Disjunction.Stops⟩

namespace Conjunction

/-- Every conjunction is made of a term and further terms. -/
theorem exists_ofTerms (conjunction : Conjunction) :
    ∃ first others, ofTerms first others = conjunction := by
  cases conjunction with
  | single term => exact ⟨term, [], rfl⟩
  | and term rest =>
    obtain ⟨second, others, same⟩ := exists_ofTerms rest
    exact ⟨term, second :: others, by rw [ofTerms, same]⟩

/-- A conjunction of some terms has these terms. -/
theorem terms_ofTerms (first : Term) (others : List Term) :
    (ofTerms first others).terms = first :: others := by
  induction others generalizing first with
  | nil => rfl
  | cons second others inductionHypothesis => simp [ofTerms, terms, inductionHypothesis]

/-- A conjunction leaves the marks of all of its terms. -/
theorem marks_ofTerms (first : Term) (others : List Term) :
    (ofTerms first others).marks = (first :: others).flatMap Term.marks := by
  induction others generalizing first with
  | nil => simp [ofTerms, marks]
  | cons second others inductionHypothesis => simp [ofTerms, marks, inductionHypothesis]

/-- A conjunction is as deep as the deepest of its terms. -/
theorem depth_ofTerms (first : Term) (others : List Term) :
    (ofTerms first others).depth = ((first :: others).map Term.depth).foldr max 0 := by
  induction others generalizing first with
  | nil => simp [ofTerms, depth]
  | cons second others inductionHypothesis => simp [ofTerms, depth, inductionHypothesis]

/-- The tokens of a conjunction are a list of terms. -/
theorem derives_ofTerms {first : Term} {others : List Term} {tokens : List Token} :
    (ofTerms first others).Derives tokens ↔
      SeparatedDerives .and Term.Derives first others tokens := by
  induction others generalizing first tokens with
  | nil =>
    constructor
    · rintro ⟨derived⟩
      exact .last derived
    · rintro ⟨derived⟩
      exact .single derived
  | cons second others inductionHypothesis =>
    constructor
    · intro derived
      cases derived with
      | and derived isAnd further =>
        exact .more derived isAnd (inductionHypothesis.mp further)
    · intro derived
      cases derived with
      | more derived isAnd further =>
        exact .and derived isAnd (inductionHypothesis.mpr further)

end Conjunction

namespace Disjunction

/-- Every disjunction is made of a conjunction and further conjunctions. -/
theorem exists_ofConjunctions (disjunction : Disjunction) :
    ∃ first others, ofConjunctions first others = disjunction := by
  cases disjunction with
  | single conjunction => exact ⟨conjunction, [], rfl⟩
  | or conjunction rest =>
    obtain ⟨second, others, same⟩ := exists_ofConjunctions rest
    exact ⟨conjunction, second :: others, by rw [ofConjunctions, same]⟩

/-- A disjunction of some conjunctions has these conjunctions. -/
theorem conjunctions_ofConjunctions (first : Conjunction) (others : List Conjunction) :
    (ofConjunctions first others).conjunctions = first :: others := by
  induction others generalizing first with
  | nil => rfl
  | cons second others inductionHypothesis =>
    simp [ofConjunctions, conjunctions, inductionHypothesis]

/-- A disjunction leaves the marks of all of its conjunctions. -/
theorem marks_ofConjunctions (first : Conjunction) (others : List Conjunction) :
    (ofConjunctions first others).marks = (first :: others).flatMap Conjunction.marks := by
  induction others generalizing first with
  | nil => simp [ofConjunctions, marks]
  | cons second others inductionHypothesis => simp [ofConjunctions, marks, inductionHypothesis]

/-- A disjunction is as deep as the deepest of its conjunctions. -/
theorem depth_ofConjunctions (first : Conjunction) (others : List Conjunction) :
    (ofConjunctions first others).depth =
      ((first :: others).map Conjunction.depth).foldr max 0 := by
  induction others generalizing first with
  | nil => simp [ofConjunctions, depth]
  | cons second others inductionHypothesis => simp [ofConjunctions, depth, inductionHypothesis]

/-- The tokens of a disjunction are a list of conjunctions. -/
theorem derives_ofConjunctions {first : Conjunction} {others : List Conjunction}
    {tokens : List Token} :
    (ofConjunctions first others).Derives tokens ↔
      SeparatedDerives .or Conjunction.Derives first others tokens := by
  induction others generalizing first tokens with
  | nil =>
    constructor
    · rintro ⟨derived⟩
      exact .last derived
    · rintro ⟨derived⟩
      exact .single derived
  | cons second others inductionHypothesis =>
    constructor
    · intro derived
      cases derived with
      | or derived isOr further =>
        exact .more derived isOr (inductionHypothesis.mp further)
    · intro derived
      cases derived with
      | more derived isOr further =>
        exact .or derived isOr (inductionHypothesis.mpr further)

end Disjunction

/-- The first token of a clause is a word, a keyword or the lower bound of a between
clause. -/
theorem Clause.Derives.head {clause : Clause} {tokens : List Token}
    (derived : clause.Derives tokens) :
    ∃ first rest, tokens = first :: rest ∧
      first.kind ∈ [Kind.number, .quoted, .phrase, .keyword, .word] := by
  cases derived with
  | between isBound =>
    exact ⟨_, _, rfl, List.mem_append_left [Kind.keyword, .word] isBound⟩
  | presence isKeyword => exact ⟨_, _, rfl, by simp [isKeyword]⟩
  | within fieldDerived | outside fieldDerived | comparison fieldDerived =>
    obtain ⟨isWord⟩ := fieldDerived
    exact ⟨_, _, rfl, by simp [isWord]⟩

/-- A term is written by one token or more. -/
theorem Term.Derives.ne_nil {term : Term} {tokens : List Token} (derived : term.Derives tokens) :
    tokens ≠ [] := by
  cases derived with
  | clause derived =>
    obtain ⟨first, rest, rfl, _⟩ := derived.head
    exact List.cons_ne_nil _ _
  | group => exact List.cons_ne_nil _ _

/-- A conjunction is written by one token or more. -/
theorem Conjunction.Derives.ne_nil {conjunction : Conjunction} {tokens : List Token}
    (derived : conjunction.Derives tokens) : tokens ≠ [] := by
  cases derived with
  | single derived => exact derived.ne_nil
  | and => simp

/-- A disjunction is written by one token or more. -/
theorem Disjunction.Derives.ne_nil {disjunction : Disjunction} {tokens : List Token}
    (derived : disjunction.Derives tokens) : tokens ≠ [] := by
  cases derived with
  | single derived => exact derived.ne_nil
  | or => simp

namespace Parser

variable {bounds : Bounds} {size : Nat} {before after : Cursor}

/-- A clause is recognized and what it uses is recorded. -/
theorem recordedClause_recognizes :
    (recordedClause bounds).Recognizes bounds size Clause.language := by
  intro before after found _
  simp only [recordedClause, bind_eq_ok, clause_eq_ok, record, modify_eq_ok, pure_eq_ok]
  constructor
  · rintro ⟨_, middle, ⟨tokens, derived, passes, stops⟩, _, _, rfl, rfl, rfl⟩
    exact ⟨tokens, derived, .inl rfl,
      ⟨passes.rest, passes.passed, passes.depth, by rw [passes.insights]; rfl⟩, stops⟩
  · rintro ⟨tokens, derived, _, passes, stops⟩
    refine ⟨found, { after with insights := before.insights },
      ⟨tokens, derived, ⟨passes.rest, passes.passed, passes.depth, rfl⟩, stops⟩, (), after, ?_,
      rfl, rfl⟩
    have recorded : after.insights = before.insights.recordAll found.marks := passes.insights
    rw [← recorded]

/-- A group is opened by a parenthesis where one more group is admitted. -/
theorem openGroup_eq_ok {result : Unit} :
    openGroup bounds before = .ok result after ↔
      ∃ (opening : Token) (middle : Cursor), opening.kind = .openGroup ∧
        (before.depth + 1 : Int) ≤ bounds.depthLimit ∧ before.Passes [opening] [] middle ∧
        after = { middle with depth := before.depth + 1 } := by
  simp only [openGroup, bind_eq_ok, consume_eq_ok, modify_eq_ok, get_eq_ok]
  constructor
  · rintro ⟨opening, middle, ⟨opens, passes⟩, _, _, rfl, _, _, ⟨rfl, rfl⟩, success⟩
    split at success
    · exact absurd success (by simp [refuse_eq_ok])
    · next admitted =>
      obtain ⟨_, rfl⟩ := pure_eq_ok.mp success
      have depth := passes.depth
      exact ⟨opening, middle, opens, by simp at admitted; omega, passes, by rw [depth]⟩
  · rintro ⟨opening, middle, opens, admitted, passes, rfl⟩
    have depth := passes.depth
    refine ⟨opening, middle, ⟨opens, passes⟩, (), _, rfl, _, _, ⟨rfl, rfl⟩, ?_⟩
    rw [if_neg (by simp; omega), pure_eq_ok, depth]
    exact ⟨rfl, rfl⟩

/-- A group is closed by a parenthesis. -/
theorem closeGroup_eq_ok {result : Unit} :
    closeGroup bounds before = .ok result after ↔
      ∃ (closing : Token) (middle : Cursor), closing.kind = .closeGroup ∧
        before.Passes [closing] [] middle ∧
        after = { middle with depth := before.depth - 1 } := by
  simp only [closeGroup, bind_eq_ok, discard_eq_ok, consume_eq_ok, modify_eq_ok]
  constructor
  · rintro ⟨_, middle, ⟨closing, closes, passes⟩, rfl⟩
    exact ⟨closing, middle, closes, passes, by rw [passes.depth]⟩
  · rintro ⟨closing, middle, closes, passes, rfl⟩
    exact ⟨(), middle, ⟨closing, closes, passes⟩, by rw [passes.depth]⟩

/-- A group is what stands inside it, with its parentheses. They take two tokens, so the
inside has fewer. -/
theorem group_eq_ok {inside : Parser Disjunction}
    (recognizes : inside.Recognizes bounds size Disjunction.language)
    (short : before.rest.length ≤ size + 1) {found : Term} :
    (do
      openGroup bounds
      let disjunction ← inside
      closeGroup bounds
      return Term.group disjunction : Parser Term) before = .ok found after ↔
      ∃ (opening closing : Token) (tokens : List Token) (disjunction : Disjunction),
        opening.kind = .openGroup ∧ disjunction.Derives tokens ∧ closing.kind = .closeGroup ∧
        found = .group disjunction ∧ bounds.Admits before.depth (disjunction.depth + 1) ∧
        before.Passes (opening :: (tokens ++ [closing])) disjunction.marks after := by
  simp only [bind_eq_ok, openGroup_eq_ok, closeGroup_eq_ok, pure_eq_ok]
  constructor
  · rintro ⟨_, _, ⟨opening, afterOpening, opens, allowed, openingPasses, rfl⟩, disjunction,
      afterInside, insideFound, _, _, ⟨closing, afterClosing, closes, closingPasses, rfl⟩, rfl,
      rfl⟩
    have openingShort := openingPasses.length_single
    obtain ⟨tokens, derived, admitted, passes, _⟩ :=
      (recognizes _ _ _ (by simp only; omega)).mp insideFound
    have insideDepth : afterInside.depth = before.depth + 1 := passes.depth
    have both := (passes.withDepth before.depth).trans (closingPasses.withDepth before.depth)
    rw [List.append_nil] at both
    refine ⟨opening, closing, tokens, disjunction, opens, derived, closes, rfl,
      Bounds.admits_succ.mpr ⟨allowed, admitted⟩, ?_⟩
    rw [insideDepth, Nat.add_sub_cancel]
    refine openingPasses.cons ?_
    rw [← openingPasses.depth] at both ⊢
    exact both
  · rintro ⟨opening, closing, tokens, disjunction, opens, derived, closes, rfl, admitted, passes⟩
    obtain ⟨allowed, insideAdmitted⟩ := Bounds.admits_succ.mp admitted
    obtain ⟨afterOpening, openingPasses, both⟩ := passes.uncons
    rw [← List.append_nil disjunction.marks] at both
    obtain ⟨afterInside, insidePasses, closingPasses⟩ := both.split
    have openingShort := openingPasses.length_single
    refine ⟨(), _, ⟨opening, afterOpening, opens, allowed, openingPasses, rfl⟩, disjunction,
      { afterInside with depth := before.depth + 1 },
      (recognizes _ _ _ (by simp only; omega)).mpr
        ⟨tokens, derived, insideAdmitted, insidePasses.withDepth (before.depth + 1), ?_⟩,
      (), after, ⟨closing, _, closes, closingPasses.withDepth (before.depth + 1), ?_⟩, rfl, rfl⟩
    · apply Disjunction.stops_of_closed
      all_goals simp [closingPasses.rest, closes]
    · rw [Nat.add_sub_cancel, ← passes.depth]

/-- No clause starts with a parenthesis. -/
theorem not_openGroup_of_clause {only : Clause} {tokens : List Token} {marks : List Mark}
    (derived : only.Derives tokens) (passes : before.Passes tokens marks after) :
    before.kindAhead 0 ≠ some .openGroup := by
  obtain ⟨first, rest, rfl, isFirst⟩ := derived.head
  rw [kindAhead_of_passes passes]
  intro isGroup
  rw [Option.some.inj isGroup] at isFirst
  exact absurd isFirst (by decide)

/-- Terms are recognized if what stands inside groups is. -/
theorem termOf_recognizes {inside : Parser Disjunction}
    (recognizes : inside.Recognizes bounds size Disjunction.language) :
    (termOf bounds inside).Recognizes bounds (size + 1) Term.language := by
  intro before after found short
  simp only [termOf, @bind_eq_ok (Option Kind), kindAhead_eq_ok]
  constructor
  · rintro ⟨_, start, ⟨rfl, atStart⟩, success⟩
    rw [atStart] at success
    split at success
    · obtain ⟨opening, closing, tokens, disjunction, opens, derived, closes, rfl, admitted,
        passes⟩ := (group_eq_ok recognizes short).mp success
      exact ⟨_, .group opens derived closes, admitted, passes, trivial⟩
    · simp only [bind_eq_ok, pure_eq_ok] at success
      obtain ⟨only, _, clauseFound, rfl, rfl⟩ := success
      obtain ⟨tokens, derived, _, passes, stops⟩ :=
        (recordedClause_recognizes _ _ _ short).mp clauseFound
      exact ⟨tokens, .clause derived, .inl rfl, passes, stops⟩
  · rintro ⟨tokens, derived, admitted, passes, stops⟩
    refine ⟨_, before, ⟨rfl, rfl⟩, ?_⟩
    cases derived with
    | clause derived =>
      rw [if_neg (not_openGroup_of_clause derived passes)]
      simp only [bind_eq_ok, pure_eq_ok]
      exact ⟨_, after, (recordedClause_recognizes _ _ _ short).mpr
        ⟨tokens, derived, .inl rfl, passes, stops⟩, rfl, rfl⟩
    | group opens derived closes =>
      rw [if_pos (by rw [kindAhead_of_passes passes, opens])]
      exact (group_eq_ok recognizes short).mpr
        ⟨_, _, _, _, opens, derived, closes, rfl, admitted, passes⟩

/-- A parser whose results are put into another form recognizes the phrases in that form. -/
theorem Recognizes.map {α β : Type} {parser : Parser α} {language : Language α}
    {image : Language β} (recognizes : parser.Recognizes bounds size language) (form : α → β)
    (covers : ∀ found, ∃ phrase, form phrase = found)
    (derives : ∀ phrase tokens, image.Derives (form phrase) tokens ↔ language.Derives phrase tokens)
    (marks : ∀ phrase, image.marks (form phrase) = language.marks phrase)
    (nesting : ∀ phrase, image.nesting (form phrase) = language.nesting phrase)
    (stops : ∀ phrase rest, image.Stops (form phrase) rest ↔ language.Stops phrase rest) :
    (parser >>= fun phrase => pure (form phrase)).Recognizes bounds size image := by
  intro before after found short
  simp only [bind_eq_ok, pure_eq_ok]
  constructor
  · rintro ⟨phrase, _, success, rfl, rfl⟩
    obtain ⟨tokens, derived, admitted, passes, stopped⟩ := (recognizes _ _ _ short).mp success
    exact ⟨tokens, (derives _ _).mpr derived, by rwa [nesting], by rwa [marks],
      (stops _ _).mpr stopped⟩
  · rintro ⟨tokens, derived, admitted, passes, stopped⟩
    obtain ⟨phrase, rfl⟩ := covers found
    rw [nesting] at admitted
    rw [marks] at passes
    exact ⟨phrase, after, (recognizes _ _ _ short).mpr
      ⟨tokens, (derives _ _).mp derived, admitted, passes, (stops _ _).mp stopped⟩, rfl, rfl⟩

/-- Conjunctions are recognized if terms are. -/
theorem conjunctionOf_recognizes {inside : Parser Disjunction}
    (recognizes : (termOf bounds inside).Recognizes bounds size Term.language) :
    (conjunctionOf bounds inside).Recognizes bounds size Conjunction.language := by
  have terms : (separated .and (termOf bounds inside)).Recognizes bounds size
      (Term.language.separated .and) :=
    separated_recognizes recognizes
      (fun term between rest isAnd => term.stops_of_no_comma (by simp [isAnd]))
  refine terms.map (fun items => Conjunction.ofTerms items.1 items.2) ?_ ?_ ?_ ?_ ?_
  · intro conjunction
    obtain ⟨first, others, same⟩ := conjunction.exists_ofTerms
    exact ⟨(first, others), same⟩
  · intro items tokens
    exact Conjunction.derives_ofTerms
  · intro items
    exact Conjunction.marks_ofTerms _ _
  · intro items
    exact Conjunction.depth_ofTerms _ _
  · intro items rest
    simp only [Conjunction.language, Conjunction.Stops, Conjunction.terms_ofTerms]
    exact Iff.rfl

/-- Disjunctions are recognized if terms are. -/
theorem disjunctionOf_recognizes {inside : Parser Disjunction}
    (recognizes : (termOf bounds inside).Recognizes bounds size Term.language) :
    (disjunctionOf bounds inside).Recognizes bounds size Disjunction.language := by
  have conjunctions : (separated .or (conjunctionOf bounds inside)).Recognizes bounds size
      (Conjunction.language.separated .or) :=
    separated_recognizes (conjunctionOf_recognizes recognizes)
      (fun conjunction between rest isOr =>
        ⟨by simp [isOr], fun last _ => last.stops_of_no_comma (by simp [isOr])⟩)
  refine conjunctions.map (fun items => Disjunction.ofConjunctions items.1 items.2)
    ?_ ?_ ?_ ?_ ?_
  · intro disjunction
    obtain ⟨first, others, same⟩ := disjunction.exists_ofConjunctions
    exact ⟨(first, others), same⟩
  · intro items tokens
    exact Disjunction.derives_ofConjunctions
  · intro items
    exact Disjunction.marks_ofConjunctions _ _
  · intro items
    exact Disjunction.depth_ofConjunctions _ _
  · intro items rest
    simp only [Disjunction.language, Disjunction.Stops, Disjunction.conjunctions_ofConjunctions]
    exact Iff.rfl

/-- What stands inside a group is recognized by as many levels as there are tokens. -/
theorem insideWithin_recognizes (size : Nat) :
    (insideWithin bounds size).Recognizes bounds size Disjunction.language := by
  induction size with
  | zero =>
    intro before after found short
    simp only [insideWithin, throw_eq_ok, false_iff]
    rintro ⟨tokens, derived, _, passes, _⟩
    have lengths := passes.length_rest
    exact derived.ne_nil (List.length_eq_zero_iff.mp (by omega))
  | succ size inductionHypothesis =>
    exact disjunctionOf_recognizes (termOf_recognizes inductionHypothesis)

/-- What stands inside a group is recognized. -/
theorem inside_recognizes : (inside bounds).Recognizes bounds size Disjunction.language := by
  intro before after found _
  simp only [inside, bind_eq_ok, get_eq_ok]
  constructor
  · rintro ⟨_, _, ⟨rfl, rfl⟩, success⟩
    exact (insideWithin_recognizes _ _ _ _ (Nat.le_refl _)).mp success
  · intro phrase
    exact ⟨before, before, ⟨rfl, rfl⟩,
      (insideWithin_recognizes _ _ _ _ (Nat.le_refl _)).mpr phrase⟩

/-- Expressions are recognized. -/
theorem expression_recognizes :
    (expression bounds).Recognizes bounds size Disjunction.language :=
  (disjunctionOf_recognizes (termOf_recognizes inside_recognizes)).mono (Nat.le_succ size)

end Parser

end UrlFilter
