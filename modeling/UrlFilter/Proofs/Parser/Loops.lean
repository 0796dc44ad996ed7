import UrlFilter.Proofs.Parser.Moves

/-!
# Loops and recursion of parsers

The parsers of lists and groups are given a number of rounds. It is never what ends them: every
round passes a token, so a list goes on as long as separators follow, and what stands inside a
group is a disjunction like any other.
-/

namespace UrlFilter.Parser

variable {α β : Type} {bounds : Bounds} {before middle after : Cursor}

/-- A sequence goes on behind a success. -/
theorem bind_of_ok {parser : Parser α} {next : α → Parser β} {found : α}
    (success : parser before = .ok found middle) :
    (parser >>= next) before = next found middle := by
  simp only [bind, EStateM.bind, success]

/-- A sequence fails where its first part does. -/
theorem bind_of_error {parser : Parser α} {next : α → Parser β} {failure : ParseFailure}
    (failed : parser before = .error failure after) :
    (parser >>= next) before = .error failure after := by
  simp only [bind, EStateM.bind, failed]

/-- A parser that moves leaves at most the tokens that it found. -/
theorem Moves.length_rest {parser : Parser α} (moves : Moves parser) {found : α}
    (success : parser before = .ok found after) : after.rest.length ≤ before.rest.length := by
  obtain ⟨tokens, _, uses, _⟩ := moves.ok success
  rw [uses.rest, List.length_append]
  exact Nat.le_add_left _ _

section Loops

variable {separator : Kind} {item : Parser α}

/-- The outcome with one more item in front, if there is one. -/
def withFirst (first : α) : EStateM.Result ParseFailure Cursor (List α) →
    EStateM.Result ParseFailure Cursor (List α)
  | .ok others after => .ok (first :: others) after
  | .error failure after => .error failure after

/-- What comes of passing a separator and an item as long as a separator follows, without a bound
on the number of rounds. -/
inductive Loops (separator : Kind) (item : Parser α) :
    Cursor → EStateM.Result ParseFailure Cursor (List α) → Prop where
  | stop {before after : Cursor} (stopped : accept separator before = .ok false after) :
      Loops separator item before (.ok [] after)
  | fails {before middle after : Cursor} {failure : ParseFailure}
      (accepted : accept separator before = .ok true middle)
      (failed : item middle = .error failure after) :
      Loops separator item before (.error failure after)
  | again {before middle behind : Cursor} {first : α}
      {outcome : EStateM.Result ParseFailure Cursor (List α)}
      (accepted : accept separator before = .ok true middle)
      (found : item middle = .ok first behind) (further : Loops separator item behind outcome) :
      Loops separator item before (withFirst first outcome)

/-- A kind is accepted by passing a token, or else the cursor stays. -/
theorem accept_cases (kind : Kind) (before : Cursor) :
    accept kind before = .ok false before ∨
      ∃ middle, accept kind before = .ok true middle ∧
        before.rest.length = middle.rest.length + 1 := by
  cases next : before.rest with
  | nil => exact .inl (accept_nil next)
  | cons token rest =>
    rw [accept_cons next]
    split
    · exact .inr ⟨_, rfl, rfl⟩
    · exact .inl rfl

section Rounds

variable {count : Nat}

/-- Without a separator there are no further items. -/
theorem further_of_stop (stopped : accept separator before = .ok false after) :
    further separator item (count + 1) before = .ok [] after := by
  rw [further, bind_of_ok stopped]
  rfl

/-- An item that fails behind a separator makes the list fail. -/
theorem further_of_fails {failure : ParseFailure}
    (accepted : accept separator before = .ok true middle)
    (failed : item middle = .error failure after) :
    further separator item (count + 1) before = .error failure after := by
  rw [further, bind_of_ok accepted]
  exact bind_of_error failed

/-- An item behind a separator is put in front of the further ones. -/
theorem further_of_again {behind : Cursor} {first : α}
    (accepted : accept separator before = .ok true middle)
    (found : item middle = .ok first behind) :
    further separator item (count + 1) before =
      withFirst first (further separator item count behind) := by
  rw [further, bind_of_ok accepted, if_pos rfl, bind_of_ok found]
  cases others : further separator item count behind with
  | error failure after => exact bind_of_error others
  | ok items after => exact bind_of_ok others

end Rounds

/-- The rounds of a list do not run out before the tokens do. -/
theorem loops_further (moves : Moves item) {count : Nat} (enough : before.rest.length ≤ count) :
    Loops separator item before (further separator item count before) := by
  induction count generalizing before with
  | zero =>
    have ended := List.length_eq_zero_iff.mp (Nat.le_zero.mp enough)
    exact .stop (accept_nil ended)
  | succ count inductionHypothesis =>
    rcases accept_cases separator before with stopped | ⟨middle, accepted, shorter⟩
    · rw [further_of_stop stopped]
      exact .stop stopped
    · cases finding : item middle with
      | error failure after =>
        rw [further_of_fails accepted finding]
        exact .fails accepted finding
      | ok first behind =>
        have atMost := moves.length_rest finding
        rw [further_of_again accepted finding]
        exact .again accepted finding (inductionHypothesis (by omega))

end Loops

section Recursion

/-- With at most so many tokens left, the parsers do the same. -/
def Agree (size : Nat) (first second : Parser α) : Prop :=
  ∀ cursor : Cursor, cursor.rest.length ≤ size → first cursor = second cursor

variable {size : Nat}

/-- A parser agrees with itself. -/
theorem Agree.refl (parser : Parser α) : Agree size parser parser :=
  fun _ _ => rfl

/-- Sequences agree if their parts do, since the first part leaves no more tokens than there were.
-/
theorem Agree.bind {first second : Parser α} {next other : α → Parser β}
    (agree : Agree size first second) (moves : Moves first)
    (nextAgree : ∀ found, Agree size (next found) (other found)) :
    Agree size (first >>= next) (second >>= other) := by
  intro cursor short
  have same := agree cursor short
  cases outcome : first cursor with
  | error failure after => rw [bind_of_error outcome, bind_of_error (same ▸ outcome)]
  | ok found after =>
    have atMost := moves.length_rest outcome
    rw [bind_of_ok outcome, bind_of_ok (same ▸ outcome)]
    exact nextAgree found after (by omega)

/-- Lists agree if their items do. -/
theorem Agree.separated {first second : Parser α} {separator : Kind}
    (agree : Agree size first second) (moves : Moves first) :
    Agree size (separated separator first) (separated separator second) := by
  have furtherAgree : ∀ count,
      Agree size (further separator first count) (further separator second count) := by
    intro count
    induction count with
    | zero => exact .refl _
    | succ count inductionHypothesis =>
      refine (Agree.refl _).bind accept_moves ?_
      intro accepted
      cases accepted with
      | false => exact .refl _
      | true =>
        exact agree.bind moves fun _ =>
          inductionHypothesis.bind (further_moves moves count) fun _ => .refl _
  exact agree.bind moves fun _ => (Agree.refl _).bind get_moves fun _ =>
    (furtherAgree _).bind (further_moves moves _) fun _ => .refl _

variable {first second : Parser Disjunction}

/-- Terms agree if what stands inside groups does, where the parenthesis is passed. -/
theorem Agree.termOf (agree : Agree size first second) (moves : Moves first) :
    Agree (size + 1) (termOf bounds first) (termOf bounds second) := by
  refine (Agree.refl _).bind (kindAhead_moves 0) ?_
  intro kind
  split
  · intro cursor short
    cases opening : openGroup bounds cursor with
    | error failure after => rw [bind_of_error opening, bind_of_error opening]
    | ok found opened =>
      obtain ⟨_, _, uses, _⟩ := openGroup_uses opening
      have shorter : cursor.rest.length = opened.rest.length + 1 := by
        rw [uses.rest]
        rfl
      rw [bind_of_ok opening, bind_of_ok opening]
      exact agree.bind moves (fun _ => .refl _) opened (by omega)
  · exact .refl _

/-- Disjunctions agree if what stands inside groups does, where the parenthesis is passed. -/
theorem Agree.disjunctionOf (agree : Agree size first second) (moves : Moves first) :
    Agree (size + 1) (disjunctionOf bounds first) (disjunctionOf bounds second) := by
  have terms : Agree (size + 1) (Parser.termOf bounds first) (Parser.termOf bounds second) :=
    agree.termOf moves
  have conjunctions :
      Agree (size + 1) (conjunctionOf bounds first) (conjunctionOf bounds second) :=
    (terms.separated (termOf_moves moves)).bind (separated_moves (termOf_moves moves)) fun _ =>
      .refl _
  exact (conjunctions.separated (conjunctionOf_moves moves)).bind
    (separated_moves (conjunctionOf_moves moves)) fun _ => .refl _

/-- Without a token left, a field is missing. -/
theorem disjunctionOf_nil (inner : Parser Disjunction) {cursor : Cursor}
    (ended : cursor.rest = []) :
    Parser.disjunctionOf bounds inner cursor =
      .error (.grammar (.endOfInput (some .word) bounds.endOffset)) cursor := by
  obtain ⟨passed, rest, depth, insights⟩ := cursor
  subst ended
  rfl

/-- More levels than tokens make no difference. -/
theorem insideWithin_agree (tokensLeft more : Nat) :
    Agree tokensLeft (insideWithin bounds tokensLeft)
      (insideWithin bounds (tokensLeft + more)) := by
  induction tokensLeft with
  | zero =>
    intro cursor short
    have ended := List.length_eq_zero_iff.mp (Nat.le_zero.mp short)
    cases more with
    | zero => rfl
    | succ more =>
      rw [Nat.zero_add, insideWithin, insideWithin, disjunctionOf_nil _ ended]
      rfl
  | succ tokensLeft inductionHypothesis =>
    have grouped : tokensLeft + 1 + more = (tokensLeft + more) + 1 := by omega
    rw [grouped]
    exact inductionHypothesis.disjunctionOf (insideWithin_moves tokensLeft)

/-- What stands inside a group is passed as any disjunction is. -/
theorem inside_eq_disjunction : inside bounds = disjunction bounds := by
  funext cursor
  have levels : ∀ size, Agree size (inside bounds) (insideWithin bounds size) := by
    intro size cursor short
    have enough : cursor.rest.length + (size - cursor.rest.length) = size := by omega
    have same := @insideWithin_agree bounds cursor.rest.length (size - cursor.rest.length) cursor
      (Nat.le_refl _)
    rw [enough] at same
    exact same
  have oneMore := levels (cursor.rest.length + 1) cursor (Nat.le_succ _)
  rw [oneMore]
  exact ((levels cursor.rest.length).disjunctionOf inside_moves cursor (Nat.le_succ _)).symm

/-- A term is a clause or a disjunction in parentheses. -/
theorem term_eq_termOf_disjunction : term bounds = Parser.termOf bounds (disjunction bounds) := by
  rw [term, inside_eq_disjunction]

end Recursion

end UrlFilter.Parser
