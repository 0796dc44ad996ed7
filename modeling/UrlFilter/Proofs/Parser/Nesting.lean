import UrlFilter.Proofs.Expression.Kinds
import UrlFilter.Proofs.Parser.Expression
import UrlFilter.Proofs.Parser.Failure

/-!
# Parsing with another depth limit

A list of tokens that is passed with one limit is passed with any other one up to the first group
that is too deep for it. `Parser.Gates` compares the two runs of one parser from one cursor; it is
inherited by sequences of parsers, by lists and by groups.
-/

namespace UrlFilter

/-- How many more groups are open behind the tokens than in front of them. -/
def Token.opened (tokens : List Token) : Int :=
  tokens.countP (·.kind = .openGroup) - tokens.countP (·.kind = .closeGroup)

/-- The first token that opens a group beyond the limit, where some groups are open already. -/
def Token.firstBeyond? (limit opened : Int) : List Token → Option Token
  | [] => none
  | token :: rest =>
    if token.kind = .openGroup ∧ limit < opened + 1 then some token
    else firstBeyond? limit (opened + Token.opened [token]) rest

/-- The tokens open and close nothing. -/
def Token.Flat (tokens : List Token) : Prop :=
  ∀ token ∈ tokens, token.kind ∉ Kind.parentheses

namespace Token

variable {token : Token} {tokens more : List Token} {limit depth : Int}

/-- No tokens open no groups. -/
@[simp] theorem opened_nil : opened [] = 0 :=
  rfl

/-- Two lists of tokens open as many groups as both together. -/
@[simp] theorem opened_append : opened (tokens ++ more) = opened tokens + opened more := by
  simp only [opened, List.countP_append]
  omega

/-- A token and further ones open as many groups as both together. -/
theorem opened_cons : opened (token :: tokens) = opened [token] + opened tokens :=
  @opened_append [token] tokens

/-- Any other token neither opens nor closes a group. -/
theorem opened_other (other : token.kind ∉ Kind.parentheses) : opened [token] = 0 := by
  simp only [Kind.parentheses, List.mem_cons, List.not_mem_nil, or_false, not_or] at other
  simp [opened, other]

/-- A scan for a group that is too deep passes any token that is no parenthesis. -/
theorem firstBeyond?_other (other : token.kind ∉ Kind.parentheses) :
    firstBeyond? limit depth (token :: tokens) = firstBeyond? limit depth tokens := by
  have notOpening : token.kind ≠ .openGroup := fun same => other (by rw [same]; decide)
  simp [firstBeyond?, notOpening, opened_other other]

/-- Flat tokens leave as many groups open as before. -/
theorem Flat.opened (flat : Flat tokens) : opened tokens = 0 := by
  induction tokens with
  | nil => rfl
  | cons token rest inductionHypothesis =>
    obtain ⟨other, restFlat⟩ := List.forall_mem_cons.mp flat
    rw [opened_cons, opened_other other, inductionHypothesis restFlat, Int.add_zero]

/-- In flat tokens no group is too deep. -/
theorem Flat.firstBeyond? (flat : Flat tokens) : firstBeyond? limit depth tokens = none := by
  induction tokens with
  | nil => rfl
  | cons token rest inductionHypothesis =>
    obtain ⟨other, restFlat⟩ := List.forall_mem_cons.mp flat
    rw [firstBeyond?_other other, inductionHypothesis restFlat]

/-- The first group beyond the limit stands in the first part, or else in the second one. -/
theorem firstBeyond?_append : firstBeyond? limit depth (tokens ++ more) =
    (firstBeyond? limit depth tokens).or (firstBeyond? limit (depth + opened tokens) more) := by
  induction tokens generalizing depth with
  | nil => simp [firstBeyond?]
  | cons token rest inductionHypothesis =>
    simp only [List.cons_append, firstBeyond?]
    split
    · rfl
    · rw [inductionHypothesis, @opened_cons token rest, Int.add_assoc]

end Token

namespace Parser

variable {α β : Type}

/-- What a parser does that comes upon the token where a group may not be opened any more; it
succeeds where there is no such token. -/
def StopsAt (parser : Parser α) (limit : Int) (before : Cursor) (found : α) (after : Cursor) :
    Option Token → Prop
  | none => parser before = .ok found after
  | some opening => ∃ left,
      parser before = .error (.grammar (.unexpected (.tooDeep limit) opening)) left

/-- From the cursor, the strict parser does what the loose one does when that succeeds, up to the
first group beyond the limit. As many groups are open afterwards as before. -/
def Gates (limit : Int) (strict loose : Parser α) (before : Cursor) : Prop :=
  ∀ found after, loose before = .ok found after →
    ∃ tokens, before.rest = tokens ++ after.rest ∧ after.depth = before.depth ∧
      Token.opened tokens = 0 ∧
      strict.StopsAt limit before found after (Token.firstBeyond? limit before.depth tokens)

variable {bounds : Bounds} {limit : Int} {before after : Cursor} {strict loose : Parser α}

/-- A parser that stops early in front of a sequence stops the sequence there. -/
theorem StopsAt.bind {first : Parser α} {next : α → Parser β} {found : α} {middle : Cursor}
    {result : β} {earlier later : Option Token}
    (firstStops : first.StopsAt limit before found middle earlier)
    (nextStops : (next found).StopsAt limit middle result after later) :
    (first >>= next).StopsAt limit before result after (earlier.or later) := by
  cases earlier with
  | some opening =>
    obtain ⟨left, failed⟩ := firstStops
    exact ⟨left, bind_eq_error.mpr (.inl failed)⟩
  | none =>
    cases later with
    | some opening =>
      obtain ⟨left, failed⟩ := nextStops
      exact ⟨left, bind_eq_error.mpr (.inr ⟨found, middle, firstStops, failed⟩)⟩
    | none => exact bind_eq_ok.mpr ⟨found, middle, firstStops, nextStops⟩

namespace Gates

/-- Sequences of gated parsers are gated. -/
theorem bind {strictNext looseNext : α → Parser β} (first : Gates limit strict loose before)
    (second : ∀ found middle, loose before = .ok found middle →
      Gates limit (strictNext found) (looseNext found) middle) :
    Gates limit (strict >>= strictNext) (loose >>= looseNext) before := by
  intro result after success
  obtain ⟨found, middle, firstFound, secondFound⟩ := bind_eq_ok.mp success
  obtain ⟨tokens, rest, depth, balanced, stops⟩ := first found middle firstFound
  obtain ⟨more, moreRest, moreDepth, moreBalanced, moreStops⟩ :=
    second found middle firstFound result after secondFound
  refine ⟨tokens ++ more, ?_, moreDepth.trans depth, ?_, ?_⟩
  · rw [rest, moreRest, List.append_assoc]
  · rw [Token.opened_append, balanced, moreBalanced, Int.add_zero]
  · rw [Token.firstBeyond?_append, balanced, Int.add_zero, ← depth]
    rw [← depth] at stops
    exact stops.bind moreStops

/-- A parser that the limit does not matter to is gated if it passes flat tokens. -/
theorem of_flat {parser : Parser α}
    (passes : ∀ found after, parser before = .ok found after →
      ∃ tokens marks, Token.Flat tokens ∧ before.Passes tokens marks after) :
    Gates limit parser parser before := by
  intro found after success
  obtain ⟨tokens, marks, flat, passed⟩ := passes found after success
  refine ⟨tokens, passed.rest, passed.depth, flat.opened, ?_⟩
  rw [flat.firstBeyond?]
  exact success

/-- A parser that stays where it is is gated. -/
theorem of_stay {parser : Parser α}
    (stays : ∀ found after, parser before = .ok found after → after = before) :
    Gates limit parser parser before :=
  of_flat fun found after success =>
    ⟨[], [], by simp [Token.Flat], Cursor.Passes.nil_iff.mpr (stays found after success)⟩

/-- A result that is given is gated. -/
theorem pure (value : α) : Gates limit (Pure.pure value) (Pure.pure value) before :=
  of_stay fun _ _ success => (pure_eq_ok.mp success).2

end Gates

section Separated

variable {separator : Kind}

end Separated

section Expressions

variable {strictInside looseInside : Parser Disjunction}

end Expressions

end Parser

end UrlFilter
