import UrlFilter.Filter

/-!
# Runs of the smallest parsers

Which tokens a parser passes when it succeeds. `Cursor.Passes` says how two cursors are
related by a success; a success of a sequence is a success of each of its parts.
-/

namespace UrlFilter

/-- The cursor after the next token, given what follows that token. -/
def Cursor.pass (cursor : Cursor) (token : Token) (rest : List Token) : Cursor :=
  { cursor with passed := token :: cursor.passed, rest := rest }

/-- The second cursor is reached from the first by passing the tokens and recording the
marks, with as many open groups as before. -/
structure Cursor.Passes (before : Cursor) (tokens : List Token) (marks : List Mark)
    (after : Cursor) : Prop where
  rest : before.rest = tokens ++ after.rest
  passed : after.passed = tokens.reverse ++ before.passed
  depth : after.depth = before.depth
  insights : after.insights = before.insights.recordAll marks

namespace Cursor.Passes

variable {before middle after : Cursor} {tokens more : List Token} {marks moreMarks : List Mark}

/-- Passing nothing stays at the cursor. -/
theorem nil_iff : before.Passes [] [] after ↔ after = before := by
  constructor
  · rintro ⟨rest, passed, depth, insights⟩
    cases before
    cases after
    simp_all [Insights.recordAll]
  · rintro rfl
    exact ⟨rfl, rfl, rfl, rfl⟩

/-- Two stretches one after the other are one stretch. -/
theorem trans (first : before.Passes tokens marks middle)
    (second : middle.Passes more moreMarks after) :
    before.Passes (tokens ++ more) (marks ++ moreMarks) after where
  rest := by rw [first.rest, second.rest, List.append_assoc]
  passed := by rw [second.passed, first.passed, List.reverse_append, List.append_assoc]
  depth := second.depth.trans first.depth
  insights := by
    rw [second.insights, first.insights]
    simp [Insights.recordAll, List.foldl_append]

/-- The tokens from the first cursor on, where one more token is passed. -/
theorem rest_snoc {token : Token} (passes : before.Passes tokens marks middle)
    (next : middle.Passes [token] moreMarks after) :
    before.rest = tokens ++ token :: after.rest := by
  rw [passes.rest, next.rest, List.singleton_append]

/-- There is a cursor between two stretches that are passed as one. -/
theorem split (both : before.Passes (tokens ++ more) (marks ++ moreMarks) after) :
    ∃ middle, before.Passes tokens marks middle ∧ middle.Passes more moreMarks after := by
  refine ⟨⟨tokens.reverse ++ before.passed, more ++ after.rest, before.depth,
    before.insights.recordAll marks⟩, ⟨?_, rfl, rfl, rfl⟩, ⟨rfl, ?_, both.depth, ?_⟩⟩
  · rw [both.rest, List.append_assoc]
  · rw [both.passed, List.reverse_append, List.append_assoc]
  · rw [both.insights]
    simp [Insights.recordAll, List.foldl_append]

/-- There is a cursor between two stretches without marks. -/
theorem splitPlain (both : before.Passes (tokens ++ more) [] after) :
    ∃ middle, before.Passes tokens [] middle ∧ middle.Passes more [] after := by
  have unmarked : before.Passes (tokens ++ more) ([] ++ []) after := both
  exact unmarked.split

/-- There is a cursor behind the first of several tokens. -/
theorem uncons {token : Token} (all : before.Passes (token :: more) marks after) :
    ∃ middle, before.Passes [token] [] middle ∧ middle.Passes more marks after := by
  have asTwo : before.Passes ([token] ++ more) ([] ++ marks) after := all
  exact asTwo.split

/-- A token in front of a stretch makes it longer. -/
theorem cons {token : Token} (first : before.Passes [token] [] middle)
    (second : middle.Passes more marks after) : before.Passes (token :: more) marks after :=
  first.trans second

/-- Tokens are passed alike with another number of open groups. -/
theorem withDepth (passes : before.Passes tokens marks after) (depth : Nat) :
    { before with depth := depth }.Passes tokens marks { after with depth := depth } :=
  ⟨passes.rest, passes.passed, rfl, passes.insights⟩

/-- Passing tokens makes the rest shorter by their number. -/
theorem length_rest (passes : before.Passes tokens marks after) :
    before.rest.length = tokens.length + after.rest.length := by
  rw [passes.rest, List.length_append]

/-- Passing one token makes the rest shorter by one. -/
theorem length_single {token : Token} (passes : before.Passes [token] marks after) :
    before.rest.length = after.rest.length + 1 := by
  rw [passes.length_rest, List.length_singleton, Nat.add_comm]

/-- One token is passed from a cursor if it is the next one. -/
theorem single_iff {head token : Token} {rest : List Token} (next : before.rest = head :: rest) :
    before.Passes [token] [] after ↔ token = head ∧ after = before.pass head rest := by
  constructor
  · rintro ⟨same, passed, depth, insights⟩
    rw [next] at same
    cases same
    cases after
    simp_all [Cursor.pass, Insights.recordAll]
  · rintro ⟨rfl, rfl⟩
    exact ⟨next, rfl, rfl, rfl⟩

/-- Nothing is passed at the end of the tokens. -/
theorem not_of_nil {token : Token} (ended : before.rest = []) :
    ¬ before.Passes (token :: tokens) marks after := by
  intro passes
  simpa [ended] using passes.rest

end Cursor.Passes

/-- The tokens start with one of the kind. -/
def StartsWith (kind : Kind) (tokens : List Token) : Prop :=
  tokens.head?.map Token.kind = some kind

namespace StartsWith

variable {kind other : Kind} {token : Token} {rest : List Token}

/-- No tokens start with no kind. -/
@[simp] theorem nil_iff : StartsWith kind [] ↔ False := by
  simp [StartsWith]

/-- Tokens start with the kind of the first of them. -/
@[simp] theorem cons_iff : StartsWith kind (token :: rest) ↔ token.kind = kind := by
  simp [StartsWith]

end StartsWith

namespace Parser

variable {α β : Type} {before after : Cursor}

/-- A sequence succeeds if its first part does and then its second part. -/
theorem bind_eq_ok {parser : Parser α} {next : α → Parser β} {result : β} :
    (parser >>= next) before = .ok result after ↔
      ∃ found middle, parser before = .ok found middle ∧ next found middle = .ok result after := by
  simp only [bind, EStateM.bind]
  cases parser before with
  | ok found middle =>
    constructor
    · intro success
      exact ⟨found, middle, rfl, success⟩
    · rintro ⟨_, _, same, success⟩
      cases same
      exact success
  | error failure middle => simp

/-- A result that is given is the only one, and the cursor stays. -/
theorem pure_eq_ok {value result : α} :
    (pure value : Parser α) before = .ok result after ↔ result = value ∧ after = before := by
  simp only [pure, EStateM.pure, EStateM.Result.ok.injEq]
  exact ⟨fun same => ⟨same.1.symm, same.2.symm⟩, fun same => ⟨same.1.symm, same.2.symm⟩⟩

/-- Discarding a result is going on without it. -/
theorem discard_eq_bind (parser : Parser α) (before : Cursor) :
    discard parser before = (parser >>= fun _ => pure ()) before := by
  simp only [Functor.discard, Functor.mapConst, Function.comp_apply, bind, EStateM.bind,
    EStateM.map]
  cases parser before <;> rfl

/-- A parser whose result is not needed succeeds where it does with one. -/
theorem discard_eq_ok {parser : Parser α} {result : Unit} :
    (discard parser) before = .ok result after ↔ ∃ found, parser before = .ok found after := by
  rw [discard_eq_bind, bind_eq_ok]
  simp only [pure_eq_ok, true_and]
  constructor
  · rintro ⟨found, _, success, rfl⟩
    exact ⟨found, success⟩
  · rintro ⟨found, success⟩
    exact ⟨found, after, success, rfl⟩

/-- What follows a look at the cursor is told the cursor. -/
theorem get_bind {next : Cursor → Parser β} : (get >>= next) before = next before before :=
  rfl

/-- A look at the cursor finds it and leaves it. -/
theorem get_eq_ok {cursor : Cursor} :
    (get : Parser Cursor) before = .ok cursor after ↔ cursor = before ∧ after = before :=
  pure_eq_ok

/-- A change of the cursor leaves the changed one. -/
theorem modify_eq_ok {change : Cursor → Cursor} {result : Unit} :
    (modify change : Parser Unit) before = .ok result after ↔ after = change before := by
  have changed : (modify change : Parser Unit) before = .ok () (change before) := rfl
  rw [changed, EStateM.Result.ok.injEq]
  exact (and_iff_right rfl).trans eq_comm

/-- A cursor that is set is the one that is left. -/
theorem set_eq_ok {cursor : Cursor} {result : PUnit} :
    (set cursor : Parser PUnit) before = .ok result after ↔ after = cursor := by
  have replaced : (set cursor : Parser PUnit) before = .ok ⟨⟩ cursor := rfl
  rw [replaced, EStateM.Result.ok.injEq]
  exact (and_iff_right rfl).trans eq_comm

/-- A failure is no success. -/
theorem throw_eq_ok {failure : ParseFailure} {result : α} :
    (throw failure : Parser α) before = .ok result after ↔ False := by
  have failed : (throw failure : Parser α) before = .error failure before := rfl
  simp [failed]

/-- A refused token is no success. -/
theorem refuse_eq_ok {objection : Objection} {token : Token} {result : α} :
    (refuse objection token : Parser α) before = .ok result after ↔ False :=
  throw_eq_ok

/-- A look ahead finds the kind that stands there and leaves the cursor. -/
theorem kindAhead_eq_ok {ahead : Nat} {kind : Option Kind} :
    kindAhead ahead before = .ok kind after ↔
      kind = before.kindAhead ahead ∧ after = before :=
  pure_eq_ok

section Equations

variable {bounds : Bounds} {kind : Kind} {token : Token} {rest : List Token}

/-- Taking a token fails at the end of the input. -/
theorem consumeAny_nil (ended : before.rest = []) :
    consumeAny bounds before =
      .error (.grammar (.endOfInput none bounds.endOffset)) before := by
  simp only [consumeAny, get_bind, ended]
  rfl

/-- Taking a token passes the next one. -/
theorem consumeAny_cons (next : before.rest = token :: rest) :
    consumeAny bounds before = .ok token (before.pass token rest) := by
  simp only [consumeAny, get_bind, next]
  rfl

/-- Taking a token of a kind fails at the end of the input. -/
theorem consume_nil (ended : before.rest = []) :
    consume bounds kind before =
      .error (.grammar (.endOfInput (some kind) bounds.endOffset)) before := by
  simp only [consume, get_bind, ended]
  rfl

/-- Taking a token of a kind passes the next one or fails at it. -/
theorem consume_cons (next : before.rest = token :: rest) :
    consume bounds kind before =
      if token.kind = kind then .ok token (before.pass token rest)
      else .error (.grammar (.unexpected (.expected kind) token)) before := by
  simp only [consume, get_bind, next]
  split <;> rfl

/-- At the end of the input there is no token of the kind. -/
theorem accept_nil (ended : before.rest = []) : accept kind before = .ok false before := by
  simp only [accept, get_bind, ended]
  rfl

/-- Trying a token of a kind passes the next one if it is of the kind. -/
theorem accept_cons (next : before.rest = token :: rest) :
    accept kind before =
      if token.kind = kind then .ok true (before.pass token rest) else .ok false before := by
  simp only [accept, get_bind, next]
  split <;> rfl

/-- The end of the input is found where no token is left. -/
theorem expectEnd_nil (ended : before.rest = []) : expectEnd before = .ok () before := by
  simp only [expectEnd, get_bind, ended]
  rfl

/-- Looking for the end of the input fails at the next token. -/
theorem expectEnd_cons (next : before.rest = token :: rest) :
    expectEnd before = .error (.grammar (.unexpected .trailing token)) before := by
  simp only [expectEnd, get_bind, next]
  rfl

end Equations

section Successes

variable {bounds : Bounds} {kind : Kind} {token : Token}

/-- Any token at all is passed, if there is one. -/
theorem consumeAny_eq_ok :
    consumeAny bounds before = .ok token after ↔ before.Passes [token] [] after := by
  cases next : before.rest with
  | nil =>
    rw [consumeAny_nil next]
    simpa using Cursor.Passes.not_of_nil next
  | cons head rest =>
    rw [consumeAny_cons next, Cursor.Passes.single_iff next, EStateM.Result.ok.injEq]
    exact and_congr eq_comm eq_comm

/-- A token of the kind is passed, if it is the next one. -/
theorem consume_eq_ok :
    consume bounds kind before = .ok token after ↔
      token.kind = kind ∧ before.Passes [token] [] after := by
  cases next : before.rest with
  | nil =>
    rw [consume_nil next]
    simpa using fun _ => Cursor.Passes.not_of_nil next
  | cons head rest =>
    rw [consume_cons next, Cursor.Passes.single_iff next]
    by_cases isKind : head.kind = kind
    · simp only [isKind, if_true, EStateM.Result.ok.injEq]
      constructor
      · rintro ⟨rfl, rfl⟩
        exact ⟨isKind, rfl, rfl⟩
      · rintro ⟨_, rfl, rfl⟩
        exact ⟨rfl, rfl⟩
    · simp only [isKind, if_false]
      constructor
      · intro success
        cases success
      · rintro ⟨same, rfl, _⟩
        exact absurd same isKind

/-- Accepting a kind says `true` if a token of it was passed. -/
theorem accept_eq_true :
    accept kind before = .ok true after ↔
      ∃ token : Token, token.kind = kind ∧ before.Passes [token] [] after := by
  cases next : before.rest with
  | nil =>
    rw [accept_nil next]
    simpa using fun _ _ => Cursor.Passes.not_of_nil next
  | cons head rest =>
    rw [accept_cons next]
    by_cases isKind : head.kind = kind
    · simp only [isKind, if_true, EStateM.Result.ok.injEq, true_and,
        Cursor.Passes.single_iff next]
      constructor
      · rintro rfl
        exact ⟨head, isKind, rfl, rfl⟩
      · rintro ⟨_, _, rfl, rfl⟩
        rfl
    · simp only [isKind, if_false, Cursor.Passes.single_iff next]
      constructor
      · intro success
        cases success
      · rintro ⟨_, same, rfl, _⟩
        exact absurd same isKind

/-- Accepting a kind says `false` if another kind or the end is next. -/
theorem accept_eq_false :
    accept kind before = .ok false after ↔ ¬ StartsWith kind before.rest ∧ after = before := by
  cases next : before.rest with
  | nil =>
    rw [accept_nil next]
    simpa using eq_comm
  | cons head rest =>
    rw [accept_cons next]
    by_cases isKind : head.kind = kind
    · simp [isKind]
    · simpa [isKind] using eq_comm

/-- The end is where no token is left. -/
theorem expectEnd_eq_ok {result : Unit} :
    expectEnd before = .ok result after ↔ before.rest = [] ∧ after = before := by
  cases next : before.rest with
  | nil =>
    rw [expectEnd_nil next]
    simpa using eq_comm
  | cons head rest =>
    rw [expectEnd_cons next]
    simp

end Successes

end Parser

end UrlFilter
