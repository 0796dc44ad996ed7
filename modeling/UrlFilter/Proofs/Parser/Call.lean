import UrlFilter.Parser.Call
import UrlFilter.Proofs.Parser.Loops

/-!
# What calls of a parser preserve

No operation puts the cursor further back than where it found it, and open groups are at most as
many as tokens before the cursor open one. This holds behind every operation, also if earlier ones
have failed amid groups.
-/

namespace UrlFilter

/-- The cursor stands in the token list, and no more groups are open than tokens before it open. -/
structure Cursor.Sound (tokens : List Token) (cursor : Cursor) : Prop where
  tokens : cursor.tokens = tokens
  opened : cursor.depth ≤ Token.openings cursor.passed.reverse

namespace Cursor

variable {before after cursor : Cursor} {tokens : List Token}

/-- The place before the first token is sound. -/
theorem Sound.start (tokens : List Token) (insights : Insights) :
    (start tokens insights).Sound tokens :=
  ⟨rfl, Nat.zero_le _⟩

/-- Parsing preserves soundness, also where it is abandoned. -/
theorem Sound.abandons (sound : before.Sound tokens) (abandons : before.Abandons after) :
    after.Sound tokens := by
  obtain ⟨passed, _, uses, _, opened⟩ := abandons
  have soundOpened := sound.opened
  constructor
  · rw [← sound.tokens]
    simp [Cursor.tokens, uses.rest, uses.passed]
  · rw [uses.passed, List.reverse_append, List.reverse_reverse, Token.openings_append]
    omega

/-- The tokens that have been passed are those in front of the position. -/
theorem Sound.passed_eq (sound : cursor.Sound tokens) :
    cursor.passed.reverse = tokens.take cursor.position := by
  rw [← sound.tokens, Cursor.tokens, position, ← List.length_reverse, List.take_left]

/-- The position is not behind the last token. -/
theorem Sound.position_le (sound : cursor.Sound tokens) : cursor.position ≤ tokens.length := by
  rw [← sound.tokens, Cursor.tokens, List.length_append, List.length_reverse]
  exact Nat.le_add_right _ _

/-- Parsing never moves the position back. -/
theorem Abandons.position_le (abandons : before.Abandons after) :
    before.position ≤ after.position := by
  obtain ⟨_, _, uses, _⟩ := abandons
  rw [position, position, uses.passed, List.length_append]
  exact Nat.le_add_left _ _

/-- Parsing never closes a group that it has not opened. -/
theorem Abandons.depth_le (abandons : before.Abandons after) : before.depth ≤ after.depth := by
  obtain ⟨_, _, _, deeper, _⟩ := abandons
  exact deeper

/-- Passing some tokens moves the position on. -/
theorem Passes.position_lt {marks : List Mark} (passes : before.Passes tokens marks after)
    (nonempty : tokens ≠ []) : before.position < after.position := by
  rw [position, position, passes.passed, List.length_append, List.length_reverse]
  exact Nat.lt_add_of_pos_left (List.length_pos_iff.mpr nonempty)

end Cursor

namespace Parser

variable {α : Type} {bounds : Bounds} {before after : Cursor}

/-- Phrases that are written by one token or more make the cursor move on. -/
theorem Recognizes.position_lt {parser : Parser α} {language : Language α}
    (recognizes : ∀ size, parser.Recognizes bounds size language)
    (nonempty : ∀ {phrase tokens}, language.Derives phrase tokens → tokens ≠ []) {found : α}
    (success : parser before = .ok found after) : before.position < after.position := by
  obtain ⟨_, derived, _, passes, _⟩ :=
    (recognizes before.rest.length before after found (Nat.le_refl _)).mp success
  exact passes.position_lt (nonempty derived)

/-- A term is recognized. -/
theorem term_recognizes (size : Nat) : (term bounds).Recognizes bounds size Term.language :=
  (termOf_recognizes inside_recognizes).mono (Nat.le_succ size)

/-- A conjunction is recognized. -/
theorem conjunction_recognizes (size : Nat) :
    (conjunction bounds).Recognizes bounds size Conjunction.language :=
  conjunctionOf_recognizes (term_recognizes size)

namespace Call

/-- Every call moves. -/
theorem run_moves (call : Call) : Moves (call.run bounds) := by
  cases call with
  | consume kind =>
    cases kind with
    | none => exact discard_moves consumeAny_moves
    | some kind => exact discard_moves consume_moves
  | accept kind => exact discard_moves accept_moves
  | expectEnd => exact expectEnd_moves
  | literal => exact discard_moves literal_moves
  | term => exact discard_moves (termOf_moves inside_moves)
  | conjunction => exact discard_moves (conjunctionOf_moves inside_moves)
  | disjunction | expression => exact discard_moves (disjunctionOf_moves inside_moves)

/-- One operation moves over tokens. -/
theorem leave_abandons (call : Call) (cursor : Cursor) :
    cursor.Abandons (call.leave bounds cursor) := by
  unfold leave
  split
  · next success => exact (call.run_moves.ok success).abandons
  · next failed => exact call.run_moves.error failed

/-- Soundness is preserved by any number of operations. -/
theorem leaveAll_sound {tokens : List Token} (calls : List Call) {cursor : Cursor}
    (sound : cursor.Sound tokens) : (leaveAll bounds cursor calls).Sound tokens := by
  induction calls generalizing cursor with
  | nil => exact sound
  | cons call rest inductionHypothesis =>
    exact inductionHypothesis (sound.abandons (call.leave_abandons cursor))

/-- A phrase that is passed has a token. -/
theorem position_lt_of_phrase {call : Call} (isPhrase : call.passesPhrase = true)
    {result : Unit} (success : call.run bounds before = .ok result after) :
    before.position < after.position := by
  cases call with
  | consume | accept | expectEnd => cases isPhrase
  | literal =>
    obtain ⟨_, found⟩ := discard_eq_ok.mp success
    obtain ⟨_, _, passes⟩ := literal_eq_ok.mp found
    exact passes.position_lt (List.cons_ne_nil _ _)
  | term =>
    obtain ⟨_, found⟩ := discard_eq_ok.mp success
    exact Recognizes.position_lt term_recognizes Term.Derives.ne_nil found
  | conjunction =>
    obtain ⟨_, found⟩ := discard_eq_ok.mp success
    exact Recognizes.position_lt conjunction_recognizes Conjunction.Derives.ne_nil found
  | disjunction | expression =>
    obtain ⟨_, found⟩ := discard_eq_ok.mp success
    exact Recognizes.position_lt (fun _ => expression_recognizes) Disjunction.Derives.ne_nil found

/-- What every operation preserves, whatever operations came before it and whether they failed.
The cursor moves forward within the token list. Groups stay open at most, and not more of them
than tokens before the cursor open. An operation that succeeds leaves as many groups open as it
found, and if it passes a phrase, it passes a token. So the loops of the grammar end: without a
bound on their rounds they have the outcomes that the parsers of lists have, and any disjunction
may stand inside a group. -/
theorem preserves (tokens : List Token) (source : Option String) (depthLimit : Int)
    (insights : Insights) (earlier : List Call) (call : Call) :
    let bounds := Bounds.of tokens source depthLimit
    let before := leaveAll bounds (Cursor.start tokens insights) earlier
    let after := call.leave bounds before
    (before.position ≤ after.position ∧ after.position ≤ tokens.length) ∧
    (before.depth ≤ after.depth ∧
      after.depth ≤ (tokens.take after.position).countP fun token => token.kind = .openGroup) ∧
    (∀ cursor, call.run bounds before = .ok () cursor →
      cursor.depth = before.depth ∧
        (call.passesPhrase = true → before.position < cursor.position)) ∧
    Loops .and (Parser.term bounds) before
      (further .and (Parser.term bounds) before.rest.length before) ∧
    Loops .or (Parser.conjunction bounds) before
      (further .or (Parser.conjunction bounds) before.rest.length before) ∧
    Loops .comma (field bounds) before
      (further .comma (field bounds) before.rest.length before) ∧
    Loops .comma (Parser.literal bounds) before
      (further .comma (Parser.literal bounds) before.rest.length before) ∧
    Parser.term bounds = termOf bounds (Parser.disjunction bounds) := by
  intro bounds before after
  have sound : before.Sound tokens := leaveAll_sound earlier (.start tokens insights)
  have abandons : before.Abandons after := call.leave_abandons before
  have afterSound := sound.abandons abandons
  refine ⟨⟨abandons.position_le, afterSound.position_le⟩, ⟨abandons.depth_le, ?_⟩, ?_,
    loops_further (termOf_moves inside_moves) (Nat.le_refl _),
    loops_further (conjunctionOf_moves inside_moves) (Nat.le_refl _),
    loops_further field_moves (Nat.le_refl _), loops_further literal_moves (Nat.le_refl _),
    term_eq_termOf_disjunction⟩
  · have opened := afterSound.opened
    rw [afterSound.passed_eq] at opened
    exact opened
  · intro cursor success
    obtain ⟨_, _, _, sameDepth⟩ := call.run_moves.ok success
    exact ⟨sameDepth, fun isPhrase => position_lt_of_phrase isPhrase success⟩

/-- Tokens of a group that is not closed, with a term behind one that is none. -/
def unclosedTokens : List Token :=
  [⟨.openGroup, "(", 0⟩, ⟨.word, "a", 1⟩, ⟨.and, "&", 2⟩, ⟨.word, "b", 3⟩, ⟨.equal, "=", 4⟩,
    ⟨.word, "c", 5⟩]

/-- Behind a failure in the group, a term can be called for and is passed with the group still
open. -/
theorem preserves_unclosed :
    let bounds := Bounds.of unclosedTokens none 1
    let before := leaveAll bounds (Cursor.start unclosedTokens Insights.empty) [.expression]
    (before.position = 3 ∧ before.depth = 1) ∧
    ∃ after, Call.term.run bounds before = .ok () after ∧ after.depth = 1 ∧
      before.position < after.position := by
  intro bounds before
  have stopped : before.position = 3 ∧ before.depth = 1 := by
    constructor <;> rfl
  obtain ⟨after, passed⟩ : ∃ after, Call.term.run bounds before = .ok () after := ⟨_, rfl⟩
  obtain ⟨_, _, onSuccess, _⟩ := preserves unclosedTokens none 1 Insights.empty [.expression] .term
  obtain ⟨sameDepth, movesOn⟩ := onSuccess after passed
  exact ⟨stopped, after, passed, sameDepth.trans stopped.2, movesOn rfl⟩

end Call

end Parser

end UrlFilter
