import UrlFilter.Proofs.Token.Lexeme

/-!
# Which lexeme is taken

A kind of lexeme is taken where it fits and no kind that is tried before it does. Most kinds
are ruled out by the first character.
-/

namespace UrlFilter

open UrlFilter.Text UrlFilter.Lexeme

namespace Kind

/-- A lexeme of the kind may start with the character. -/
def mayStart : Kind → Char → Bool
  | .regex, c => c == '/'
  | .quoted, c => c == '\''
  | .phrase, c => !endsPhrase c && !isBlank c
  | .number, c => c == '-' || c.isDigit
  | .boolean, c => c == 't' || c == 'f'
  | .null, c => c == 'n'
  | .notEqual, c => c == '!'
  | .atLeast, c => c == '>'
  | .atMost, c => c == '<'
  | .matching, c => c == '~'
  | .equal, c => c == '='
  | .greater, c => c == '>'
  | .less, c => c == '<'
  | .or, c => c == '^'
  | .and, c => c == '&'
  | .openGroup, c => c == '('
  | .closeGroup, c => c == ')'
  | .openList, c => c == '\x7b'
  | .closeList, c => c == '\x7d'
  | .comma, c => c == ','
  | .bang, c => c == '!'
  | .keyword, c => c == '$'
  | .word, c => isWordChar c
  | .blank, c => isBlank c

/-- The kinds that are tried before the kind. -/
def before (kind : Kind) : List Kind :=
  byPriority.takeWhile fun other => other ≠ kind

/-- Every kind is tried. -/
theorem byPriority_eq (kind : Kind) : ∃ later, byPriority = kind.before ++ kind :: later := by
  cases kind <;> exact ⟨_, rfl⟩

/-- A truth value has one of two spellings. -/
theorem boolean_eq_some_iff {text lexeme : List Char} :
    Kind.boolean.lexeme? text = some lexeme ↔
      (lexeme = "true".toList ∨ lexeme = "false".toList) ∧ ∃ rest, text = lexeme ++ rest := by
  have either : Kind.boolean.lexeme? text = (spelled "true" text).or (spelled "false" text) := by
    cases isTrue : spelled "true" text <;> simp [lexeme?, isTrue]
  rw [either, Option.or_eq_some_iff, spelled_eq_some_iff, spelled_eq_some_iff]
  constructor
  · rintro (⟨isTrue, starts⟩ | ⟨_, isFalse, starts⟩)
    · exact ⟨.inl isTrue, starts⟩
    · exact ⟨.inr isFalse, starts⟩
  · rintro ⟨rfl | rfl, rest, rfl⟩
    · exact .inl ⟨rfl, rest, rfl⟩
    · exact .inr ⟨by rfl, rfl, rest, rfl⟩

/-- A lexeme is one character or more at the start of the text. -/
theorem lexeme?_prefix {kind : Kind} {text lexeme : List Char}
    (found : kind.lexeme? text = some lexeme) : lexeme ≠ [] ∧ ∃ rest, text = lexeme ++ rest := by
  cases kind with
  | regex =>
    obtain ⟨_, _, rest, rfl, rfl, _⟩ := regex_eq_some_iff.mp found
    exact ⟨List.cons_ne_nil _ _, rest, rfl⟩
  | quoted =>
    obtain ⟨_, rest, rfl, rfl, _⟩ := quoted_eq_some_iff.mp found
    exact ⟨List.cons_ne_nil _ _, rest, rfl⟩
  | number =>
    obtain ⟨_, whole, _, rest, rfl, rfl, _, isWhole, _⟩ := number_eq_some_iff.mp found
    exact ⟨by simp [isWhole.nonempty], rest, rfl⟩
  | keyword =>
    obtain ⟨_, _, rest, rfl, rfl, _⟩ := keyword_eq_some_iff.mp found
    exact ⟨List.cons_ne_nil _ _, rest, rfl⟩
  | phrase =>
    obtain ⟨same, _, _, rfl, _⟩ := phrase_eq_some_iff.mp found
    refine ⟨List.cons_ne_nil _ _, text.dropWhile fun c => !endsPhrase c, ?_⟩
    rw [same, List.takeWhile_append_dropWhile]
  | word | blank =>
    obtain ⟨nonempty, _, rest, rfl, _⟩ := run_eq_some_iff.mp found
    exact ⟨nonempty, rest, rfl⟩
  | boolean =>
    obtain ⟨rfl | rfl, rest, rfl⟩ := boolean_eq_some_iff.mp found <;>
      exact ⟨by decide, rest, rfl⟩
  | null | notEqual | atLeast | atMost | matching | equal | greater | less | or | and | openGroup
  | closeGroup | openList | closeList | comma | bang =>
    obtain ⟨rfl, rest, rfl⟩ := spelled_eq_some_iff.mp found
    exact ⟨by decide, rest, rfl⟩

/-- The first character of a text tells which lexemes may stand there. -/
theorem mayStart_of_lexeme? {kind : Kind} {c : Char} {rest lexeme : List Char}
    (found : kind.lexeme? (c :: rest) = some lexeme) : kind.mayStart c = true := by
  cases kind with
  | regex =>
    obtain ⟨_, _, _, rfl, same, _⟩ := regex_eq_some_iff.mp found
    cases same
    rfl
  | quoted =>
    obtain ⟨_, _, rfl, same, _⟩ := quoted_eq_some_iff.mp found
    cases same
    rfl
  | number =>
    obtain ⟨_, _, _, _, rfl, same, isSign, isWhole, _⟩ := number_eq_some_iff.mp found
    rcases isSign with rfl | rfl
    · obtain ⟨_, _, rfl, isDigit⟩ := isWhole.head
      cases same
      simp [mayStart, isDigit]
    · cases same
      rfl
  | keyword =>
    obtain ⟨_, _, _, rfl, same, _⟩ := keyword_eq_some_iff.mp found
    cases same
    rfl
  | phrase =>
    obtain ⟨same, first, others, rfl, notBlank, _⟩ := phrase_eq_some_iff.mp found
    rw [List.takeWhile_cons] at same
    split at same
    · next inside =>
      cases same
      simp only [Bool.not_eq_true'] at inside
      simp [mayStart, inside, notBlank]
    · cases same
  | word | blank =>
    obtain ⟨nonempty, all, rest, same, _⟩ := run_eq_some_iff.mp found
    obtain ⟨first, others, rfl⟩ := List.exists_cons_of_ne_nil nonempty
    cases same
    exact all c List.mem_cons_self
  | boolean =>
    obtain ⟨rfl | rfl, _, same⟩ := boolean_eq_some_iff.mp found <;> cases same <;> rfl
  | null | notEqual | atLeast | atMost | matching | equal | greater | less | or | and | openGroup
  | closeGroup | openList | closeList | comma | bang =>
    obtain ⟨rfl, _, same⟩ := spelled_eq_some_iff.mp found
    cases same
    rfl

/-- The kinds before a kind are those that precede it in order of priority. -/
theorem before_eq {kind : Kind} {earlier later : List Kind}
    (split : byPriority = earlier ++ kind :: later) : kind.before = earlier := by
  have distinct : byPriority.Nodup := by decide
  rw [split, List.nodup_append] at distinct
  have others : ∀ other ∈ earlier, decide (other ≠ kind) = true := by
    intro other isEarlier
    exact decide_eq_true (distinct.2.2 other isEarlier kind List.mem_cons_self)
  rw [before, split]
  exact takeWhile_append_stop others (by simp)

end Kind

/-- A lexeme is taken where it is found and no kind that is tried before has one. -/
theorem firstLexeme?_eq_some_iff {kind : Kind} {text lexeme : List Char} :
    firstLexeme? text = some (kind, lexeme) ↔
      kind.lexeme? text = some lexeme ∧ ∀ other ∈ kind.before, other.lexeme? text = none := by
  unfold firstLexeme?
  rw [List.findSome?_eq_some_iff]
  constructor
  · rintro ⟨earlier, _, later, split, taken, untaken⟩
    obtain ⟨_, found, same⟩ := Option.map_eq_some_iff.mp taken
    cases same
    refine ⟨found, ?_⟩
    rw [Kind.before_eq split]
    intro other isEarlier
    exact Option.map_eq_none_iff.mp (untaken other isEarlier)
  · rintro ⟨found, untaken⟩
    obtain ⟨later, split⟩ := kind.byPriority_eq
    refine ⟨kind.before, kind, later, split, by rw [found]; rfl, ?_⟩
    intro other isEarlier
    rw [untaken other isEarlier]
    rfl

/-- No lexeme is found exactly if no kind has one. -/
theorem firstLexeme?_eq_none_iff {text : List Char} :
    firstLexeme? text = none ↔ ∀ kind : Kind, kind.lexeme? text = none := by
  have every : ∀ kind, kind ∈ Kind.byPriority := by
    intro kind
    cases kind <;> decide
  simp [firstLexeme?, List.findSome?_eq_none_iff, every]

/-- A lexeme is taken where it is found if the other kinds that are tried before and may start
with its first character have none. -/
theorem firstLexeme?_of_start {kind : Kind} {c : Char} {rest lexeme : List Char}
    (found : kind.lexeme? (c :: rest) = some lexeme)
    (untaken : ∀ other ∈ kind.before, other.mayStart c = true →
      other.lexeme? (c :: rest) = none) :
    firstLexeme? (c :: rest) = some (kind, lexeme) := by
  refine firstLexeme?_eq_some_iff.mpr ⟨found, ?_⟩
  intro other isEarlier
  cases otherFound : other.lexeme? (c :: rest) with
  | none => rfl
  | some taken =>
    rw [← otherFound]
    exact untaken other isEarlier (Kind.mayStart_of_lexeme? otherFound)

end UrlFilter
