import UrlFilter.Proofs.Expression.Shape
import UrlFilter.Proofs.Parser.Failure

/-!
# Where parsers stop

A parser that succeeds closes all groups that it has opened, and one that fails leaves some of
them open. Either way it has recorded nothing but fields that words among the tokens name, with
tags of operators. `Parser.Moves` says so of one parser at every cursor; it is inherited by
sequences of parsers, but not by those that count groups, record marks or go back.
-/

namespace UrlFilter

/-- Every mark is a field that one of the tokens names, with the tag of an operator. -/
def MarkedBy (tokens : List Token) (marks : List Mark) : Prop :=
  ∀ mark ∈ marks, NamedIn tokens mark.1 ∧ ∃ operator : Operator, mark.2 = operator.tag

/-- The number of tokens that open a group. -/
def Token.openings (tokens : List Token) : Nat :=
  tokens.countP fun token => token.kind = .openGroup

/-- Token lists open as many groups together as they do one by one. -/
theorem Token.openings_append (tokens more : List Token) :
    openings (tokens ++ more) = openings tokens + openings more :=
  List.countP_append

section Marked

variable {tokens more others : List Token} {marks moreMarks : List Mark}

/-- Nothing is marked where there are no marks. -/
theorem MarkedBy.nil (tokens : List Token) : MarkedBy tokens [] := by
  simp [MarkedBy]

/-- Marks that fit some tokens fit any list that has these tokens. -/
theorem MarkedBy.mono (marked : MarkedBy tokens marks) (included : tokens ⊆ others) :
    MarkedBy others marks :=
  fun mark isMark => ⟨(marked mark isMark).1.mono included, (marked mark isMark).2⟩

/-- Marks of two token lists fit the two lists together. -/
theorem MarkedBy.append (first : MarkedBy tokens marks) (second : MarkedBy more moreMarks) :
    MarkedBy (tokens ++ more) (marks ++ moreMarks) :=
  List.forall_mem_append.mpr
    ⟨first.mono (List.subset_append_left _ _), second.mono (List.subset_append_right _ _)⟩

/-- A clause uses fields with tags of operators. -/
theorem Clause.exists_operator {clause : Clause} :
    ∀ mark ∈ clause.marks, ∃ operator : Operator, mark.2 = operator.tag := by
  cases clause with
  | between lower lowerLimit field upperLimit upper =>
    exact List.forall_mem_cons.mpr ⟨⟨_, rfl⟩, List.forall_mem_singleton.mpr ⟨_, rfl⟩⟩
  | presence present field others =>
    intro mark isMark
    obtain ⟨name, _, rfl⟩ := List.mem_map.mp isMark
    exact ⟨.presence, rfl⟩
  | membership field inside first others => exact List.forall_mem_singleton.mpr ⟨_, rfl⟩
  | comparison field comparator operand => exact List.forall_mem_singleton.mpr ⟨_, rfl⟩

/-- A clause marks fields that its tokens name. -/
theorem Clause.Derives.marked {clause : Clause} (derived : clause.Derives tokens) :
    MarkedBy tokens clause.marks :=
  fun mark isMark => ⟨derived.named mark isMark, Clause.exists_operator mark isMark⟩

end Marked

/-- The second cursor is reached from the first by passing the tokens and recording the marks,
which use nothing but fields that the tokens name. -/
structure Cursor.Uses (before : Cursor) (tokens : List Token) (marks : List Mark)
    (after : Cursor) : Prop where
  rest : before.rest = tokens ++ after.rest
  passed : after.passed = tokens.reverse ++ before.passed
  insights : after.insights = before.insights.recordAll marks
  marked : MarkedBy tokens marks

/-- The second cursor is reached from the first, with as many groups open as before. -/
def Cursor.Completes (before after : Cursor) : Prop :=
  ∃ tokens marks, before.Uses tokens marks after ∧ after.depth = before.depth

/-- The second cursor is reached from the first, and groups that were opened on the way may still
be open. -/
def Cursor.Abandons (before after : Cursor) : Prop :=
  ∃ tokens marks, before.Uses tokens marks after ∧ before.depth ≤ after.depth ∧
    after.depth ≤ before.depth + Token.openings tokens

namespace Cursor

variable {before middle after : Cursor} {tokens more : List Token} {marks moreMarks : List Mark}

/-- A cursor that stays passes no tokens and records no marks. -/
theorem Uses.refl (cursor : Cursor) : cursor.Uses [] [] cursor :=
  ⟨rfl, rfl, rfl, .nil _⟩

/-- Where one way ends and another begins, the tokens and the marks of both are put together. -/
theorem Uses.trans (first : before.Uses tokens marks middle)
    (second : middle.Uses more moreMarks after) :
    before.Uses (tokens ++ more) (marks ++ moreMarks) after where
  rest := by rw [first.rest, second.rest, List.append_assoc]
  passed := by rw [second.passed, first.passed, List.reverse_append, List.append_assoc]
  insights := by
    rw [second.insights, first.insights]
    simp [Insights.recordAll, List.foldl_append]
  marked := first.marked.append second.marked

/-- The number of open groups does not matter to the tokens that are passed. -/
theorem Uses.withDepth (uses : before.Uses tokens marks after) (depth : Nat) :
    before.Uses tokens marks { after with depth := depth } :=
  ⟨uses.rest, uses.passed, uses.insights, uses.marked⟩

/-- Passing tokens uses their fields if the marks fit the tokens. -/
theorem Passes.uses (passes : before.Passes tokens marks after) (marked : MarkedBy tokens marks) :
    before.Uses tokens marks after :=
  ⟨passes.rest, passes.passed, passes.insights, marked⟩

/-- Passing tokens leaves as many groups open as before. -/
theorem Passes.completes (passes : before.Passes tokens marks after)
    (marked : MarkedBy tokens marks) : before.Completes after :=
  ⟨tokens, marks, passes.uses marked, passes.depth⟩

/-- Tokens that are passed without marks leave nothing to fit. -/
theorem Passes.completes_plain (passes : before.Passes tokens [] after) :
    before.Completes after :=
  passes.completes (.nil _)

/-- A cursor that stays completes what it starts. -/
theorem Completes.refl (cursor : Cursor) : cursor.Completes cursor :=
  ⟨[], [], .refl cursor, rfl⟩

/-- Two completed ways are a completed way. -/
theorem Completes.trans (first : before.Completes middle) (second : middle.Completes after) :
    before.Completes after := by
  obtain ⟨tokens, marks, uses, depth⟩ := first
  obtain ⟨more, moreMarks, moreUses, moreDepth⟩ := second
  exact ⟨_, _, uses.trans moreUses, moreDepth.trans depth⟩

/-- A completed way is one that may leave groups open and leaves none. -/
theorem Completes.abandons (completes : before.Completes after) : before.Abandons after := by
  obtain ⟨tokens, marks, uses, depth⟩ := completes
  exact ⟨tokens, marks, uses, by omega, by omega⟩

/-- A cursor that stays abandons nothing. -/
theorem Abandons.refl (cursor : Cursor) : cursor.Abandons cursor :=
  (Completes.refl cursor).abandons

/-- What is left open on two ways is left open behind both, and no more groups are open than
parentheses were passed. -/
theorem Abandons.trans (first : before.Abandons middle) (second : middle.Abandons after) :
    before.Abandons after := by
  obtain ⟨tokens, marks, uses, deeper, opened⟩ := first
  obtain ⟨more, moreMarks, moreUses, moreDeeper, moreOpened⟩ := second
  refine ⟨_, _, uses.trans moreUses, by omega, ?_⟩
  rw [Token.openings_append]
  omega

end Cursor

namespace Parser

variable {α β : Type} {bounds : Bounds}

/-- From every cursor, the parser closes what it opens if it succeeds, and abandons it if it
fails. -/
structure Moves (parser : Parser α) : Prop where
  ok : ∀ {before found after}, parser before = .ok found after → before.Completes after
  error : ∀ {before failure after}, parser before = .error failure after → before.Abandons after

namespace Moves

variable {parser : Parser α} {next : α → Parser β}

/-- A sequence moves as its parts do. -/
theorem bind (first : Moves parser) (second : ∀ found, Moves (next found)) :
    Moves (parser >>= next) where
  ok := by
    intro before found after success
    obtain ⟨_, middle, firstFound, success⟩ := bind_eq_ok.mp success
    exact (first.ok firstFound).trans ((second _).ok success)
  error := by
    intro before failure after failed
    rcases bind_eq_error.mp failed with failed | ⟨_, middle, firstFound, failed⟩
    · exact first.error failed
    · exact (first.ok firstFound).abandons.trans ((second _).error failed)

/-- A parser moves that never succeeds and fails where it stands. -/
theorem of_throw {failure : ParseFailure}
    (fails : ∀ cursor, parser cursor = .error failure cursor) : Moves parser where
  ok := by
    intro before _ _ success
    rw [fails before] at success
    cases success
  error := by
    intro before _ _ failed
    rw [fails before] at failed
    cases failed
    exact .refl before

/-- A parser that stays where it is and always succeeds moves. -/
theorem of_stays {found : Cursor → α}
    (stays : ∀ cursor, parser cursor = .ok (found cursor) cursor) : Moves parser where
  ok := by
    intro before _ _ success
    rw [stays before] at success
    cases success
    exact .refl before
  error := by
    intro before _ _ failed
    rw [stays before] at failed
    cases failed

end Moves

/-- A result that is given moves nothing. -/
theorem pure_moves (value : α) : Moves (pure value : Parser α) :=
  .of_stays fun _ => rfl

/-- Looking at the cursor moves nothing. -/
theorem get_moves : Moves (get : Parser Cursor) :=
  .of_stays fun _ => rfl

/-- Looking ahead moves nothing. -/
theorem kindAhead_moves (ahead : Nat) : Moves (kindAhead ahead) :=
  .of_stays fun _ => rfl

/-- A failure leaves the cursor where it is. -/
theorem throw_moves (failure : ParseFailure) : Moves (throw failure : Parser α) :=
  .of_throw fun _ => rfl

/-- Refusing a token leaves the cursor where it is. -/
theorem refuse_moves (objection : Objection) (token : Token) :
    Moves (refuse objection token : Parser α) :=
  throw_moves _

/-- A parser moves alike if its result is not needed. -/
theorem discard_moves {parser : Parser α} (moves : Moves parser) : Moves (discard parser) := by
  have both : Moves (parser >>= fun _ => pure ()) := moves.bind fun _ => pure_moves ()
  exact ⟨fun success => both.ok (discard_eq_bind parser _ ▸ success),
    fun failed => both.error (discard_eq_bind parser _ ▸ failed)⟩

section Tokens

variable {kind : Kind}

/-- Taking the next token passes it, or stays at the end of the tokens. -/
theorem consumeAny_moves : Moves (consumeAny bounds) where
  ok success := (consumeAny_eq_ok.mp success).completes_plain
  error := by
    intro before failure after failed
    cases next : before.rest with
    | nil =>
      rw [consumeAny_nil next] at failed
      cases failed
      exact .refl before
    | cons token rest =>
      rw [consumeAny_cons next] at failed
      cases failed

/-- Taking a token of a kind passes it, or stays in front of one of another kind. -/
theorem consume_moves : Moves (consume bounds kind) where
  ok success := (consume_eq_ok.mp success).2.completes_plain
  error := by
    intro before failure after failed
    cases next : before.rest with
    | nil =>
      rw [consume_nil next] at failed
      cases failed
      exact .refl before
    | cons token rest =>
      rw [consume_cons next] at failed
      split at failed
      · cases failed
      · cases failed
        exact .refl before

/-- Trying a token of a kind passes it if it is there and never fails. -/
theorem accept_moves : Moves (accept kind) where
  ok := by
    intro before accepted after success
    cases accepted with
    | false =>
      rw [(accept_eq_false.mp success).2]
      exact .refl before
    | true =>
      obtain ⟨_, _, passes⟩ := accept_eq_true.mp success
      exact passes.completes_plain
  error := by
    intro before failure after failed
    cases next : before.rest with
    | nil =>
      rw [accept_nil next] at failed
      cases failed
    | cons token rest =>
      rw [accept_cons next] at failed
      split at failed <;> cases failed

/-- Looking for the end of the tokens stays where it is. -/
theorem expectEnd_moves : Moves expectEnd where
  ok := by
    intro before found after success
    cases next : before.rest with
    | nil =>
      rw [expectEnd_nil next] at success
      cases success
      exact .refl before
    | cons token rest =>
      rw [expectEnd_cons next] at success
      cases success
  error := by
    intro before failure after failed
    cases next : before.rest with
    | nil =>
      rw [expectEnd_nil next] at failed
      cases failed
    | cons token rest =>
      rw [expectEnd_cons next] at failed
      cases failed
      exact .refl before

end Tokens

section Separated

variable {item : Parser α} {separator : Kind}

/-- Further items move as items do. -/
theorem further_moves (moves : Moves item) (count : Nat) :
    Moves (further separator item count) := by
  induction count with
  | zero => exact pure_moves []
  | succ count inductionHypothesis =>
    refine accept_moves.bind ?_
    intro accepted
    cases accepted with
    | false => exact pure_moves []
    | true => exact moves.bind fun _ => inductionHypothesis.bind fun _ => pure_moves _

/-- A list with separators moves as its items do. -/
theorem separated_moves (moves : Moves item) : Moves (separated separator item) :=
  moves.bind fun _ => get_moves.bind fun _ => (further_moves moves _).bind fun _ => pure_moves _

end Separated

section Clauses

/-- A literal is one token, which is passed also if it cannot be read. -/
theorem literal_moves : Moves (literal bounds) := by
  refine consumeAny_moves.bind ?_
  intro token
  cases Literal.ofToken token with
  | ok read => exact pure_moves read
  | error failure => exact throw_moves failure

/-- A field is one token. -/
theorem field_moves : Moves (field bounds) :=
  consume_moves.bind fun _ => pure_moves _

/-- The part of a between clause behind its lower bound moves. -/
theorem betweenAfter_moves {lower : Literal} {lowerLimit : Limit} :
    Moves (betweenAfter bounds lower lowerLimit) := by
  refine (discard_moves consumeAny_moves).bind fun _ => field_moves.bind fun _ =>
    consumeAny_moves.bind ?_
  intro token
  cases Limit.ofKind? token.kind with
  | none => exact refuse_moves _ token
  | some upperLimit => exact literal_moves.bind fun _ => pure_moves _

/-- Where no between clause is found, the cursor is back where it was. A failure leaves it behind
the lower bound or further on. -/
theorem between?_moves : Moves (between? bounds) where
  ok := by
    intro before found after success
    cases found with
    | none =>
      rw [between?_eq_none success]
      exact .refl before
    | some clause =>
      obtain ⟨_, _, _, _, _, _, _, _, _, _, _, _, _, _, _, passes⟩ := between?_eq_some.mp success
      exact passes.completes_plain
  error := by
    intro before failure after failed
    rcases bind_eq_error.mp failed with getFailed | ⟨_, _, isStart, restFailed⟩
    · cases getFailed
    obtain ⟨rfl, rfl⟩ := get_eq_ok.mp isStart
    rcases bind_eq_error.mp restFailed with lowerFailed | ⟨lower, afterLower, lowerFound, choice⟩
    · exact literal_moves.error lowerFailed
    refine (literal_moves.ok lowerFound).abandons.trans ?_
    rcases bind_eq_error.mp choice with aheadFailed | ⟨kind, atLimit, isNext, chosen⟩
    · cases aheadFailed
    obtain ⟨_, rfl⟩ := kindAhead_eq_ok.mp isNext
    cases limit : kind.bind Limit.ofKind? with
    | none =>
      simp only [limit] at chosen
      cases chosen
    | some lowerLimit =>
      simp only [limit] at chosen
      have moves : Moves (do return some (← betweenAfter bounds lower lowerLimit)) :=
        betweenAfter_moves.bind fun _ => pure_moves _
      exact moves.error chosen

/-- A presence clause moves. -/
theorem presence_moves : Moves (presence bounds) := by
  refine consume_moves.bind ?_
  intro keyword
  cases Clause.ofKeyword? keyword.text with
  | none => exact throw_moves _
  | some present =>
    exact (discard_moves consume_moves).bind fun _ => (separated_moves field_moves).bind fun _ =>
      pure_moves _

/-- A membership clause moves, negated or not. -/
theorem membership_moves : Moves (membership bounds) :=
  field_moves.bind fun _ => accept_moves.bind fun _ => (discard_moves consume_moves).bind fun _ =>
    (separated_moves literal_moves).bind fun _ => (discard_moves consume_moves).bind fun _ =>
      pure_moves _

/-- A comparison moves, also where its operator is refused. -/
theorem comparison_moves : Moves (comparison bounds) := by
  refine field_moves.bind fun _ => consumeAny_moves.bind ?_
  intro token
  cases Comparator.ofKind? token.kind with
  | none => exact refuse_moves _ token
  | some comparator => exact literal_moves.bind fun _ => pure_moves _

/-- A clause that is no between clause moves, whichever form it has. -/
theorem plainClause_moves : Moves (plainClause bounds) := by
  refine get_moves.bind ?_
  intro cursor
  split
  · exact presence_moves
  · split
    · exact membership_moves
    · exact comparison_moves

/-- A clause moves, also where a between clause has been tried first. -/
theorem clause_moves : Moves (clause bounds) := by
  refine (kindAhead_moves 0).bind ?_
  intro kind
  split
  · refine between?_moves.bind ?_
    intro found
    cases found with
    | none => exact plainClause_moves
    | some clause => exact pure_moves clause
  · exact plainClause_moves

/-- What a clause records are fields that its tokens name. -/
theorem recordedClause_moves : Moves (recordedClause bounds) where
  ok := by
    intro before found after success
    obtain ⟨tokens, derived, _, passes, _⟩ :=
      (recordedClause_recognizes before after found (Nat.le_refl _)).mp success
    have clauseDerived : found.Derives tokens := derived
    exact passes.completes clauseDerived.marked
  error := by
    intro before failure after failed
    rcases bind_eq_error.mp failed with clauseFailed | ⟨_, _, _, recordFailed⟩
    · exact clause_moves.error clauseFailed
    · rcases bind_eq_error.mp recordFailed with failed | ⟨_, _, _, failed⟩ <;> cases failed

end Clauses

section Groups

variable {before after : Cursor} {inner : Parser Disjunction}

/-- A parenthesis is passed and one more group is open, whether that is allowed or not. -/
theorem openGroup_uses {result : Unit} (success : openGroup bounds before = .ok result after) :
    ∃ opening, opening.kind = Kind.openGroup ∧ before.Uses [opening] [] after ∧
      after.depth = before.depth + 1 := by
  obtain ⟨opening, middle, opens, _, passes, rfl⟩ := openGroup_eq_ok.mp success
  exact ⟨opening, opens, (passes.uses (.nil _)).withDepth _, rfl⟩

/-- Where no group can be opened, the parenthesis may have been passed and counted. -/
theorem openGroup_error {failure : ParseFailure}
    (failed : openGroup bounds before = .error failure after) : before.Abandons after := by
  rcases bind_eq_error.mp failed with consumeFailed | ⟨opening, middle, found, countFailed⟩
  · exact consume_moves.error consumeFailed
  obtain ⟨opens, passes⟩ := consume_eq_ok.mp found
  rcases bind_eq_error.mp countFailed with modifyFailed | ⟨_, opened, isOpened, limitFailed⟩
  · cases modifyFailed
  have deeper : opened = { middle with depth := middle.depth + 1 } := modify_eq_ok.mp isOpened
  have stays : after = opened := by
    rcases bind_eq_error.mp limitFailed with getFailed | ⟨_, _, isCursor, refused⟩
    · cases getFailed
    obtain ⟨rfl, rfl⟩ := get_eq_ok.mp isCursor
    split at refused <;> cases refused
    rfl
  have depth := passes.depth
  rw [stays, deeper]
  refine ⟨[opening], [], (passes.uses (.nil _)).withDepth _, ?_, ?_⟩
  · simp only [depth]
    omega
  · simp [depth, Token.openings, opens]

/-- A group closes its parenthesis if it succeeds. -/
theorem group_moves (moves : Moves inner) :
    Moves (do
      openGroup bounds
      let disjunction ← inner
      closeGroup bounds
      return Term.group disjunction : Parser Term) where
  ok := by
    intro before found after success
    obtain ⟨_, opened, isOpened, success⟩ := bind_eq_ok.mp success
    obtain ⟨_, _, openingUses, openedDepth⟩ := openGroup_uses isOpened
    obtain ⟨disjunction, behind, insideFound, success⟩ := bind_eq_ok.mp success
    obtain ⟨_, _, insideUses, insideDepth⟩ := moves.ok insideFound
    obtain ⟨_, closed, isClosed, success⟩ := bind_eq_ok.mp success
    obtain ⟨closing, middle, _, passes, rfl⟩ := closeGroup_eq_ok.mp isClosed
    obtain ⟨_, rfl⟩ := pure_eq_ok.mp success
    refine ⟨_, _, openingUses.trans (insideUses.trans ((passes.uses (.nil _)).withDepth _)), ?_⟩
    simp only
    omega
  error := by
    intro before failure after failed
    rcases bind_eq_error.mp failed with openFailed | ⟨_, opened, isOpened, failed⟩
    · exact openGroup_error openFailed
    obtain ⟨opening, opens, openingUses, openedDepth⟩ := openGroup_uses isOpened
    have isAbandoned : before.Abandons opened := by
      refine ⟨_, _, openingUses, by omega, ?_⟩
      simp [openedDepth, Token.openings, opens]
    refine isAbandoned.trans ?_
    rcases bind_eq_error.mp failed with insideFailed | ⟨_, behind, insideFound, failed⟩
    · exact moves.error insideFailed
    refine (moves.ok insideFound).abandons.trans ?_
    rcases bind_eq_error.mp failed with closeFailed | ⟨_, _, _, pureFailed⟩
    · rcases bind_eq_error.mp closeFailed with consumeFailed | ⟨_, _, _, modifyFailed⟩
      · exact (discard_moves consume_moves).error consumeFailed
      · cases modifyFailed
    · cases pureFailed

/-- A term moves if what stands inside a group does. -/
theorem termOf_moves (moves : Moves inner) : Moves (termOf bounds inner) := by
  refine (kindAhead_moves 0).bind ?_
  intro kind
  split
  · exact group_moves moves
  · exact recordedClause_moves.bind fun _ => pure_moves _

/-- A conjunction moves if what stands inside a group does. -/
theorem conjunctionOf_moves (moves : Moves inner) : Moves (conjunctionOf bounds inner) :=
  (separated_moves (termOf_moves moves)).bind fun _ => pure_moves _

/-- A disjunction moves if what stands inside a group does. -/
theorem disjunctionOf_moves (moves : Moves inner) : Moves (disjunctionOf bounds inner) :=
  (separated_moves (conjunctionOf_moves moves)).bind fun _ => pure_moves _

/-- What stands inside a group moves, however many groups may be nested in it. -/
theorem insideWithin_moves (tokensLeft : Nat) : Moves (insideWithin bounds tokensLeft) := by
  induction tokensLeft with
  | zero => exact throw_moves _
  | succ tokensLeft inductionHypothesis => exact disjunctionOf_moves inductionHypothesis

/-- What stands inside a group moves. -/
theorem inside_moves : Moves (inside bounds) :=
  get_moves.bind fun _ => insideWithin_moves _

/-- Parsing a whole token list moves. -/
theorem whole_moves : Moves (whole bounds) :=
  (disjunctionOf_moves inside_moves).bind fun _ => expectEnd_moves.bind fun _ => pure_moves _

end Groups

end Parser

end UrlFilter
