import UrlFilter.Proofs.Parser.Clause

/-!
# Failures of parsers

A parser moves over the tokens of its cursor, whether it succeeds or fails, and a failure
arises at one of these tokens or at their end. `Parser.Runs` says so of one parser at one
cursor; it is inherited by sequences of parsers.
-/

namespace UrlFilter

/-- The failure is that of a token that does not belong where it stands, that of a token that
cannot be read as a literal, or that of the end of the tokens. -/
inductive ParseFailure.ArisesIn (bounds : Bounds) (tokens : List Token) : ParseFailure → Prop where
  | endOfInput {expected : Option Kind} :
      ArisesIn bounds tokens (.grammar (.endOfInput expected bounds.endOffset))
  | unexpected {objection : Objection} {token : Token} (isToken : token ∈ tokens)
      (limited : ∀ limit, objection = .tooDeep limit → limit = bounds.depthLimit) :
      ArisesIn bounds tokens (.grammar (.unexpected objection token))
  | literal {token : Token} {failure : ParseFailure} (isToken : token ∈ tokens)
      (unread : Literal.ofToken token = .error failure) : ArisesIn bounds tokens failure

/-- The second cursor is reached from the first by passing tokens. -/
def Cursor.Reaches (before after : Cursor) : Prop :=
  ∃ tokens, before.rest = tokens ++ after.rest ∧ after.passed = tokens.reverse ++ before.passed

namespace Cursor

variable {before middle after : Cursor}

/-- A cursor reaches itself. -/
theorem Reaches.refl (cursor : Cursor) : cursor.Reaches cursor :=
  ⟨[], rfl, rfl⟩

/-- What is reached from a cursor that has been reached is reached. -/
theorem Reaches.trans (first : before.Reaches middle) (second : middle.Reaches after) :
    before.Reaches after := by
  obtain ⟨tokens, rest, passed⟩ := first
  obtain ⟨more, moreRest, morePassed⟩ := second
  refine ⟨tokens ++ more, ?_, ?_⟩
  · rw [rest, moreRest, List.append_assoc]
  · rw [morePassed, passed, List.reverse_append, List.append_assoc]

/-- The token list stays the same. -/
theorem Reaches.tokens (reaches : before.Reaches after) : after.tokens = before.tokens := by
  obtain ⟨tokens, rest, passed⟩ := reaches
  simp [Cursor.tokens, rest, passed]

/-- Passing tokens reaches the place behind them. -/
theorem Passes.reaches {tokens : List Token} {marks : List Mark}
    (passes : before.Passes tokens marks after) : before.Reaches after :=
  ⟨tokens, passes.rest, passes.passed⟩

/-- Tokens that are passed are tokens of the list. -/
theorem Passes.mem_tokens {tokens : List Token} {marks : List Mark} {token : Token}
    (passes : before.Passes tokens marks after) (isPassed : token ∈ tokens) :
    token ∈ before.tokens := by
  rw [Cursor.tokens, passes.rest]
  exact List.mem_append_right _ (List.mem_append_left _ isPassed)

/-- Tokens that have been passed are tokens of the list. -/
theorem Passes.mem_tokens_after {tokens : List Token} {marks : List Mark} {token : Token}
    (passes : before.Passes tokens marks after) (isPassed : token ∈ tokens) :
    token ∈ after.tokens := by
  rw [passes.reaches.tokens]
  exact passes.mem_tokens isPassed

/-- The next token is a token of the list. -/
theorem mem_tokens_of_next {token : Token} {rest : List Token}
    (next : before.rest = token :: rest) : token ∈ before.tokens := by
  rw [Cursor.tokens, next]
  exact List.mem_append_right _ List.mem_cons_self

end Cursor

namespace Parser

variable {α β : Type} {bounds : Bounds} {before middle after : Cursor}

/-- At the cursor, the parser moves over tokens, and its failures arise in them. -/
structure Runs (bounds : Bounds) (before : Cursor) (parser : Parser α) : Prop where
  ok : ∀ {found after}, parser before = .ok found after → before.Reaches after
  error : ∀ {failure after}, parser before = .error failure after →
    before.Reaches after ∧ failure.ArisesIn bounds before.tokens

/-- A sequence fails if its first part does, or its second part where the first one ends. -/
theorem bind_eq_error {parser : Parser α} {next : α → Parser β} {failure : ParseFailure} :
    (parser >>= next) before = .error failure after ↔
      parser before = .error failure after ∨
      ∃ found middle, parser before = .ok found middle ∧
        next found middle = .error failure after := by
  simp only [bind, EStateM.bind]
  cases parser before with
  | ok found middle =>
    constructor
    · intro failed
      exact .inr ⟨found, middle, rfl, failed⟩
    · rintro (failed | ⟨_, _, same, failed⟩)
      · cases failed
      · cases same
        exact failed
  | error failure middle => simp

namespace Runs

variable {parser : Parser α} {next : α → Parser β}

/-- A sequence runs if its parts do, each where it starts. -/
theorem bind (first : Runs bounds before parser)
    (second : ∀ {found middle}, parser before = .ok found middle →
      Runs bounds middle (next found)) : Runs bounds before (parser >>= next) where
  ok := by
    intro found after success
    obtain ⟨_, middle, firstFound, success⟩ := bind_eq_ok.mp success
    exact (first.ok firstFound).trans ((second firstFound).ok success)
  error := by
    intro failure after failed
    rcases bind_eq_error.mp failed with failed | ⟨_, middle, firstFound, failed⟩
    · exact first.error failed
    · have reaches := first.ok firstFound
      obtain ⟨further, arises⟩ := (second firstFound).error failed
      rw [reaches.tokens] at arises
      exact ⟨reaches.trans further, arises⟩

/-- A parser that always succeeds runs if it moves over tokens. -/
theorem of_ok {found : α} (success : parser before = .ok found after)
    (reaches : before.Reaches after) : Runs bounds before parser where
  ok := by
    intro _ _ again
    rw [success] at again
    cases again
    exact reaches
  error := by
    intro _ _ failed
    rw [success] at failed
    cases failed

/-- A parser that fails where it stands runs if the failure arises in the tokens. -/
theorem of_error {failure : ParseFailure} (failed : parser before = .error failure before)
    (arises : failure.ArisesIn bounds before.tokens) : Runs bounds before parser where
  ok := by
    intro _ _ success
    rw [failed] at success
    cases success
  error := by
    intro _ _ again
    rw [failed] at again
    cases again
    exact ⟨.refl before, arises⟩

end Runs

variable {parser : Parser α}

/-- A result that is given stays where it is. -/
theorem pure_runs (value : α) : Runs bounds before (pure value : Parser α) :=
  .of_ok rfl (.refl before)

/-- Looking at the cursor stays where it is. -/
theorem get_runs : Runs bounds before (get : Parser Cursor) :=
  .of_ok rfl (.refl before)

/-- Looking ahead stays where it is. -/
theorem kindAhead_runs (ahead : Nat) : Runs bounds before (kindAhead ahead) :=
  .of_ok rfl (.refl before)

/-- A failure runs if it arises in the tokens. -/
theorem throw_runs {failure : ParseFailure} (arises : failure.ArisesIn bounds before.tokens) :
    Runs bounds before (throw failure : Parser α) :=
  .of_error rfl arises

/-- A change that leaves the place as it is. -/
theorem modify_runs {change : Cursor → Cursor} (rest : (change before).rest = before.rest)
    (passed : (change before).passed = before.passed) :
    Runs bounds before (modify change : Parser Unit) :=
  .of_ok rfl ⟨[], rest.symm, passed⟩

/-- A parser runs alike if its result is not needed. -/
theorem discard_runs (runs : Runs bounds before parser) : Runs bounds before (discard parser) := by
  have both : Runs bounds before (parser >>= fun _ => pure ()) := runs.bind fun _ => pure_runs ()
  exact ⟨fun success => both.ok (discard_eq_bind parser before ▸ success),
    fun failed => both.error (discard_eq_bind parser before ▸ failed)⟩

section Tokens

variable {kind : Kind}

/-- Taking the next token passes it or fails at the end of the input. -/
theorem consumeAny_runs : Runs bounds before (consumeAny bounds) := by
  cases next : before.rest with
  | nil => exact .of_error (consumeAny_nil next) .endOfInput
  | cons token rest => exact .of_ok (consumeAny_cons next) ⟨[token], next, rfl⟩

/-- Taking a token of a kind passes it, or fails at the one that stands there instead. -/
theorem consume_runs : Runs bounds before (consume bounds kind) := by
  cases next : before.rest with
  | nil => exact .of_error (consume_nil next) .endOfInput
  | cons token rest =>
    have outcome := @consume_cons before bounds kind token rest next
    split at outcome
    · exact .of_ok outcome ⟨[token], next, rfl⟩
    · exact .of_error outcome (.unexpected (Cursor.mem_tokens_of_next next) nofun)

/-- Trying a token of a kind never fails. -/
theorem accept_runs : Runs bounds before (accept kind) := by
  cases next : before.rest with
  | nil => exact .of_ok (accept_nil next) (.refl before)
  | cons token rest =>
    have outcome := @accept_cons before kind token rest next
    split at outcome
    · exact .of_ok outcome ⟨[token], next, rfl⟩
    · exact .of_ok outcome (.refl before)

/-- Looking for the end of the input fails at the token that stands there instead. -/
theorem expectEnd_runs : Runs bounds before expectEnd := by
  cases next : before.rest with
  | nil => exact .of_ok (expectEnd_nil next) (.refl before)
  | cons token rest =>
    exact .of_error (expectEnd_cons next) (.unexpected (Cursor.mem_tokens_of_next next) nofun)

/-- Refusing a token fails at it. A group that is refused is too deep for the limit that the
parser has been told. -/
theorem refuse_runs {objection : Objection} {token : Token} (isToken : token ∈ before.tokens)
    (limited : ∀ limit, objection = .tooDeep limit → limit = bounds.depthLimit) :
    Runs bounds before (refuse objection token : Parser α) :=
  throw_runs (.unexpected isToken limited)

end Tokens

section Separated

variable {item : Parser α} {separator : Kind}

/-- Further items run if items do. -/
theorem further_runs (runs : ∀ {cursor}, Runs bounds cursor item) (count : Nat) :
    Runs bounds before (further separator item count) := by
  induction count generalizing before with
  | zero => exact pure_runs []
  | succ count inductionHypothesis =>
    refine accept_runs.bind ?_
    intro accepted _ _
    cases accepted with
    | false => exact pure_runs []
    | true => exact runs.bind fun _ => inductionHypothesis.bind fun _ => pure_runs _

/-- A list with separators runs if its items do. -/
theorem separated_runs (runs : ∀ {cursor}, Runs bounds cursor item) :
    Runs bounds before (separated separator item) :=
  runs.bind fun _ => get_runs.bind fun _ => (further_runs runs _).bind fun _ => pure_runs _

end Separated

section Clauses

/-- A literal fails where its token is missing or cannot be read. -/
theorem literal_runs : Runs bounds before (literal bounds) := by
  refine consumeAny_runs.bind ?_
  intro token middle found
  have isToken := (consumeAny_eq_ok.mp found).mem_tokens_after List.mem_cons_self
  cases reads : Literal.ofToken token with
  | ok read => exact pure_runs read
  | error failure => exact throw_runs (.literal isToken reads)

/-- A field fails where its word is missing. -/
theorem field_runs : Runs bounds before (field bounds) :=
  consume_runs.bind fun _ => pure_runs _

/-- Behind the lower bound of a between clause, every failure arises in the tokens, that of a
second limit too. -/
theorem betweenAfter_runs {lower : Literal} {lowerLimit : Limit} :
    Runs bounds before (betweenAfter bounds lower lowerLimit) := by
  refine (discard_runs consumeAny_runs).bind fun _ => field_runs.bind fun _ =>
    consumeAny_runs.bind ?_
  intro token middle found
  have isToken := (consumeAny_eq_ok.mp found).mem_tokens_after List.mem_cons_self
  cases Limit.ofKind? token.kind with
  | none => exact refuse_runs isToken nofun
  | some upperLimit => exact literal_runs.bind fun _ => pure_runs _

/-- A between clause runs, also where the cursor is put back because there is none. -/
theorem between?_runs : Runs bounds before (between? bounds) where
  ok := by
    intro found after success
    cases found with
    | none =>
      rw [between?_eq_none success]
      exact .refl before
    | some clause =>
      obtain ⟨_, _, _, _, _, _, _, _, _, _, _, _, _, _, _, passes⟩ := between?_eq_some.mp success
      exact passes.reaches
  error := by
    intro failure after failed
    rcases bind_eq_error.mp failed with getFailed | ⟨_, _, isStart, restFailed⟩
    · cases getFailed
    obtain ⟨rfl, rfl⟩ := get_eq_ok.mp isStart
    rcases bind_eq_error.mp restFailed with lowerFailed | ⟨lower, afterLower, lowerFound, choice⟩
    · exact literal_runs.error lowerFailed
    have reaches := literal_runs.ok lowerFound
    rcases bind_eq_error.mp choice with aheadFailed | ⟨kind, atLimit, isNext, chosen⟩
    · cases aheadFailed
    obtain ⟨_, sameCursor⟩ := kindAhead_eq_ok.mp isNext
    rw [← sameCursor] at reaches
    cases limit : kind.bind Limit.ofKind? with
    | none =>
      simp only [limit] at chosen
      cases chosen
    | some lowerLimit =>
      simp only [limit] at chosen
      have runs : Runs bounds atLimit (do return some (← betweenAfter bounds lower lowerLimit)) :=
        betweenAfter_runs.bind fun _ => pure_runs _
      obtain ⟨further, arises⟩ := runs.error chosen
      rw [reaches.tokens] at arises
      exact ⟨reaches.trans further, arises⟩

/-- A presence clause runs where one starts: its keyword asks for a presence. -/
theorem presence_runs (starts : startsPresence before = true) :
    Runs bounds before (presence bounds) := by
  refine consume_runs.bind ?_
  intro keyword middle found
  obtain ⟨_, passes⟩ := consume_eq_ok.mp found
  have spelled : (Clause.ofKeyword? keyword.text).isSome = true := by
    simp only [startsPresence, passes.rest, List.singleton_append] at starts
    exact (of_decide_eq_true starts).2
  obtain ⟨present, spelling⟩ := Option.isSome_iff_exists.mp spelled
  simp only [spelling]
  exact (discard_runs consume_runs).bind fun _ => (separated_runs field_runs).bind fun _ =>
    pure_runs _

/-- A membership clause fails only where one of its parts does. -/
theorem membership_runs : Runs bounds before (membership bounds) :=
  field_runs.bind fun _ => accept_runs.bind fun _ => (discard_runs consume_runs).bind fun _ =>
    (separated_runs literal_runs).bind fun _ => (discard_runs consume_runs).bind fun _ =>
      pure_runs _

/-- A comparison fails where one of its parts does or where it has no operator. -/
theorem comparison_runs : Runs bounds before (comparison bounds) := by
  refine field_runs.bind fun _ => consumeAny_runs.bind ?_
  intro token middle found
  have isToken := (consumeAny_eq_ok.mp found).mem_tokens_after List.mem_cons_self
  cases Comparator.ofKind? token.kind with
  | none => exact refuse_runs isToken nofun
  | some comparator => exact literal_runs.bind fun _ => pure_runs _

/-- A clause that is no between clause runs, whichever form it has. -/
theorem plainClause_runs : Runs bounds before (plainClause bounds) := by
  refine get_runs.bind ?_
  intro cursor middle found
  obtain ⟨rfl, rfl⟩ := get_eq_ok.mp found
  split
  · next starts => exact presence_runs starts
  · split
    · exact membership_runs
    · exact comparison_runs

/-- A clause runs, also where a between clause has been tried first. -/
theorem clause_runs : Runs bounds before (clause bounds) := by
  refine (kindAhead_runs 0).bind ?_
  intro kind middle _
  split
  · refine between?_runs.bind ?_
    intro found _ _
    cases found with
    | none => exact plainClause_runs
    | some clause => exact pure_runs clause
  · exact plainClause_runs

/-- A clause runs alike if what it uses is recorded. -/
theorem recordedClause_runs : Runs bounds before (recordedClause bounds) :=
  clause_runs.bind fun _ => (modify_runs rfl rfl).bind fun _ => pure_runs _

end Clauses

section Expressions

/-- Opening a group fails where its parenthesis is missing, or at a parenthesis that is too deep.
-/
theorem openGroup_runs : Runs bounds before (openGroup bounds) := by
  refine consume_runs.bind ?_
  intro token middle found
  have isToken := (consume_eq_ok.mp found).2.mem_tokens_after List.mem_cons_self
  refine (modify_runs rfl rfl).bind ?_
  intro _ opened isOpened
  have sameTokens : opened.tokens = middle.tokens := by
    rw [modify_eq_ok.mp isOpened]
    rfl
  refine get_runs.bind ?_
  intro cursor _ isCursor
  obtain ⟨rfl, rfl⟩ := get_eq_ok.mp isCursor
  split
  · refine refuse_runs ?_ fun limit same => (Objection.tooDeep.inj same).symm
    rw [sameTokens]
    exact isToken
  · exact pure_runs ()

/-- Closing a group fails where its parenthesis is missing. -/
theorem closeGroup_runs : Runs bounds before (closeGroup bounds) :=
  (discard_runs consume_runs).bind fun _ => modify_runs rfl rfl

variable {inner : Parser Disjunction}

/-- A term runs if what stands inside a group does. -/
theorem termOf_runs (runs : ∀ {cursor}, Runs bounds cursor inner) :
    Runs bounds before (termOf bounds inner) := by
  refine (kindAhead_runs 0).bind ?_
  intro kind middle _
  split
  · exact openGroup_runs.bind fun _ => runs.bind fun _ => closeGroup_runs.bind fun _ => pure_runs _
  · exact recordedClause_runs.bind fun _ => pure_runs _

/-- A disjunction runs if what stands inside a group does. -/
theorem disjunctionOf_runs (runs : ∀ {cursor}, Runs bounds cursor inner) :
    Runs bounds before (disjunctionOf bounds inner) :=
  (separated_runs ((separated_runs (termOf_runs runs)).bind fun _ => pure_runs _)).bind
    fun _ => pure_runs _

/-- What stands inside a group runs, however many groups may be nested in it. -/
theorem insideWithin_runs (tokensLeft : Nat) :
    Runs bounds before (insideWithin bounds tokensLeft) := by
  induction tokensLeft generalizing before with
  | zero => exact throw_runs .endOfInput
  | succ tokensLeft inductionHypothesis => exact disjunctionOf_runs inductionHypothesis

/-- What stands inside a group runs. -/
theorem inside_runs : Runs bounds before (inside bounds) :=
  get_runs.bind fun _ => insideWithin_runs _

/-- Parsing a whole token list fails at one of the tokens or at their end. -/
theorem whole_runs : Runs bounds before (whole bounds) :=
  (disjunctionOf_runs inside_runs).bind fun _ => expectEnd_runs.bind fun _ => pure_runs _

end Expressions

end Parser

end UrlFilter
