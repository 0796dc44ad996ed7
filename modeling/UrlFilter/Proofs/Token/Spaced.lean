import UrlFilter.Proofs.Token.Connected

/-!
# Blanks between tokens

Blanks in front of a text change nothing but offsets. A blank behind a text changes nothing
either, unless a word or a phrase is left with no character behind it that ends phrases: then all
from there on becomes one phrase.
-/

namespace UrlFilter

open Text Lexeme

/-- Nothing but blanks may start with a blank. -/
theorem Kind.eq_blank_of_isBlank {kind : Kind} {c : Char} (blank : isBlank c = true)
    (may : kind.mayStart c = true) : kind = .blank := by
  have different : ∀ sign, isBlank sign = false → c ≠ sign := by
    rintro sign notBlank rfl
    rw [notBlank] at blank
    cases blank
  cases kind with
  | blank => rfl
  | phrase => simp [mayStart, blank] at may
  | word =>
    have notBlank := (phraseChar_of_isWordChar may).2.2
    rw [blank] at notBlank
    cases notBlank
  | number =>
    have isDigit : c.isDigit = true := by
      simpa [mayStart, different '-' (by decide)] using may
    rw [isBlank_of_isDecimalDigit (isDecimalDigit_of_isDigit isDigit)] at blank
    cases blank
  | boolean =>
    simp [mayStart, different 't' (by decide), different 'f' (by decide)] at may
  | regex | quoted | null | notEqual | atLeast | atMost | matching | equal | greater | less | or
  | and | openGroup | closeGroup | openList | closeList | comma | bang | keyword =>
    simp only [mayStart, beq_iff_eq] at may
    exact absurd may (different _ (by decide))

/-- Where a blank stands, all blanks there are taken. -/
theorem firstLexeme?_blanks {blanks rest : List Char} (nonempty : blanks ≠ [])
    (all : ∀ c ∈ blanks, isBlank c = true) (stops : rest.head?.any isBlank = false) :
    firstLexeme? (blanks ++ rest) = some (.blank, blanks) := by
  have found : Kind.blank.lexeme? (blanks ++ rest) = some blanks :=
    run_eq_some_iff.mpr ⟨nonempty, all, rest, rfl, stops⟩
  obtain ⟨c, others, rfl⟩ := List.exists_cons_of_ne_nil nonempty
  refine firstLexeme?_of_start found ?_
  intro other isEarlier starts
  rw [Kind.eq_blank_of_isBlank (all c List.mem_cons_self) starts] at isEarlier
  exact absurd isEarlier (by decide)

namespace Lexeme

variable {text : List Char}

/-- A character that ends phrases is no blank. -/
theorem isBlank_of_endsPhrase {c : Char} (ends : endsPhrase c = true) : isBlank c = false := by
  simp only [endsPhrase, List.contains_eq_mem, List.mem_cons, List.not_mem_nil, or_false,
    decide_eq_true_eq] at ends
  rcases ends with rfl | rfl | rfl | rfl | rfl | rfl | rfl <;> decide

/-- What comes behind a character that ends phrases does not matter to a phrase. -/
theorem phrase_of_ends (ends : ∃ c ∈ text, endsPhrase c = true) (back : List Char) :
    phrase (text ++ back) = phrase text := by
  obtain ⟨c, isChar, endsHere⟩ := ends
  obtain ⟨front, others, rfl⟩ := List.append_of_mem isChar
  rw [List.append_assoc, List.cons_append, phrase_apart endsHere, phrase_apart endsHere]

/-- Text that nothing ends is a phrase with a blank behind it. -/
theorem phrase_spaced {first : Char} {others : List Char} (notBlank : isBlank first = false)
    (unended : ∀ c ∈ first :: others, endsPhrase c = false) :
    phrase (first :: others ++ [' ']) = some (first :: others ++ [' ']) := by
  have inside : ∀ c ∈ first :: others ++ [' '], (!endsPhrase c) = true := by
    rw [List.forall_mem_append]
    refine ⟨fun c isChar => by simp [unended c isChar], ?_⟩
    intro c isSpace
    rw [List.mem_singleton.mp isSpace]
    decide
  have whole := takeWhile_append_stop inside (rfl : ([] : List Char).head?.any _ = false)
  rw [List.append_nil] at whole
  refine phrase_eq_some_iff.mpr ⟨whole.symm, first, others ++ [' '], rfl, notBlank, ?_⟩
  rw [List.any_append, Bool.or_eq_true]
  exact .inr (by decide)

/-- A decimal digit ends no phrase. -/
theorem endsPhrase_of_isDecimalDigit {c : Char} (digit : isDecimalDigit c = true) :
    endsPhrase c = false := by
  have different : ∀ sign, isDecimalDigit sign = false → c ≠ sign := by
    rintro sign noDigit rfl
    rw [noDigit] at digit
    cases digit
  simp [endsPhrase, different '&' (by decide), different '^' (by decide),
    different ')' (by decide), different '=' (by decide), different '>' (by decide),
    different '<' (by decide), different '!' (by decide)]

/-- No number has a character that ends phrases. -/
theorem unended_number {lexeme : List Char} (found : number text = some lexeme) :
    lexeme.any endsPhrase = false := by
  obtain ⟨sign, whole, fraction, _, rfl, _, isSign, isWhole, isFraction, _⟩ :=
    number_eq_some_iff.mp found
  have digits : ∀ digits : List Char, (∀ c ∈ digits, isDecimalDigit c = true) →
      digits.any endsPhrase = false := by
    intro digits all
    rw [List.any_eq_false]
    intro c isChar
    simp [endsPhrase_of_isDecimalDigit (all c isChar)]
  have signed : sign.any endsPhrase = false := by
    rcases isSign with rfl | rfl <;> decide
  have wholeUnended : whole.any endsPhrase = false :=
    digits whole isWhole.digits
  have fractionUnended : fraction.any endsPhrase = false := by
    rcases isFraction with rfl | ⟨others, rfl, _, all⟩
    · rfl
    · rw [List.any_cons, digits others all]
      rfl
  rw [List.any_append, List.any_append, signed, wholeUnended, fractionUnended]
  rfl

theorem isBlank_space : ∀ c ∈ [' '], isBlank c = true :=
  List.forall_mem_singleton.mpr (by decide)

end Lexeme

section Taken

variable {kind : Kind} {text lexeme : List Char}
  (taken : firstLexeme? text = some (kind, lexeme))
  (closed : kind = .phrase → text.head?.any opensDelimited = false)

include taken closed

/-- Only phrases and blanks go on with a blank. -/
theorem lexeme?_before_blank {other : Kind} (isTried : other ∈ kind :: kind.before)
    (notPhrase : other ≠ .phrase) (notBlank : other ≠ .blank) :
    other.lexeme? (text ++ [' ']) = other.lexeme? text := by
  by_cases isDelimited : other = .regex ∨ other = .quoted
  · exact delimited_apart taken closed (by decide) isTried isDelimited
  · have apart : other.mayGoOn ' ' = false := by
      revert notPhrase notBlank isDelimited
      cases other <;> decide
    obtain ⟨filled, rest, rfl⟩ := Kind.lexeme?_prefix (firstLexeme?_eq_some_iff.mp taken).1
    exact Kind.lexeme?_apart apart (by simp [filled])

/-- A lexeme is taken in front of a blank too, unless it is a word or a phrase and nothing ends
the text. -/
theorem firstLexeme?_before_blank (notBlank : kind ≠ .blank)
    (ends : kind = .word ∨ kind = .phrase → ∃ c ∈ text, endsPhrase c = true) :
    firstLexeme? (text ++ [' ']) = some (kind, lexeme) := by
  refine firstLexeme?_apart taken closed (by decide) ?_
  intro other isTried _ _
  by_cases isPhrase : other = .phrase
  · subst isPhrase
    have later : kind = .word ∨ kind = .phrase := by
      revert isTried notBlank
      cases kind <;> decide
    exact phrase_of_ends (ends later) [' ']
  · have tried : other ≠ .blank := by
      rintro rfl
      revert isTried notBlank
      cases kind <;> decide
    exact lexeme?_before_blank taken closed isTried isPhrase tried

/-- A word or a phrase in a text that nothing ends becomes one phrase with all of the text when a
blank is added. -/
theorem firstLexeme?_swallowed (isBare : kind = .word ∨ kind = .phrase)
    (unended : ∀ c ∈ text, endsPhrase c = false) :
    firstLexeme? (text ++ [' ']) = some (.phrase, text ++ [' ']) := by
  obtain ⟨found, untaken⟩ := firstLexeme?_eq_some_iff.mp taken
  obtain ⟨filled, rest, same⟩ := Kind.lexeme?_prefix found
  obtain ⟨first, others, rfl⟩ := List.exists_cons_of_ne_nil (l := text) (by simp [same, filled])
  have notBlank : isBlank first = false := by
    have starts := Kind.mayStart_of_lexeme? found
    cases blank : isBlank first with
    | false => rfl
    | true =>
      rw [Kind.eq_blank_of_isBlank blank starts] at isBare
      exact absurd isBare (by decide)
  refine firstLexeme?_eq_some_iff.mpr ⟨phrase_spaced notBlank unended, ?_⟩
  intro other isEarlier
  have beforeKind : other ∈ kind.before := by
    rcases isBare with rfl | rfl
    · rw [before_word]
      exact List.mem_append_left _ isEarlier
    · exact isEarlier
  have notPhrase : other ≠ .phrase := by
    rintro rfl
    exact absurd isEarlier (by decide)
  have notBlankKind : other ≠ .blank := by
    rintro rfl
    exact absurd isEarlier (by decide)
  rw [lexeme?_before_blank taken closed (.tail _ beforeKind) notPhrase notBlankKind]
  exact untaken other beforeKind

end Taken

namespace Scan

/-- A run of blanks is passed over. -/
theorem readFrom_run {blanks rest : List Char} (all : ∀ c ∈ blanks, isBlank c = true)
    (stops : rest.head?.any isBlank = false) (offset : Nat) :
    readFrom 0 offset (blanks ++ rest) = readFrom 0 (offset + blanks.length) rest := by
  by_cases isEmpty : blanks = []
  · rw [isEmpty]
    rfl
  · rw [readFrom_lexeme (firstLexeme?_blanks isEmpty all stops)]
    rfl

/-- Blanks in front of a text are passed over. -/
theorem readFrom_blanks {blanks : List Char} (all : ∀ c ∈ blanks, isBlank c = true)
    (offset : Nat) (text : List Char) :
    readFrom 0 offset (blanks ++ text) = readFrom 0 (offset + blanks.length) text := by
  -- The blanks are taken together with those at the start of the text.
  have split : text = text.takeWhile isBlank ++ text.dropWhile isBlank :=
    List.takeWhile_append_dropWhile.symm
  have more : ∀ c ∈ text.takeWhile isBlank, isBlank c = true := fun c => mem_takeWhile_imp
  have allMore : ∀ c ∈ blanks ++ text.takeWhile isBlank, isBlank c = true :=
    List.forall_mem_append.mpr ⟨all, more⟩
  rw [split, ← List.append_assoc, readFrom_run allMore head?_dropWhile_any,
    readFrom_run more head?_dropWhile_any, List.length_append, Nat.add_assoc]

namespace Reads

variable {offset : Nat} {text : List Char} {scan : Scan}

/-- Every character of a text that is scanned to its end is blank or belongs to a token. -/
theorem exists_token (reads : Reads offset text scan) (noFailure : scan.failure = none) {c : Char}
    (isChar : c ∈ text) : isBlank c = true ∨ ∃ token ∈ scan.tokens, c ∈ token.text.toList := by
  induction reads with
  | done => cases isChar
  | stuck nothing => cases noFailure
  | @lexeme offset kind lexeme rest scan taken further inductionHypothesis =>
    rw [push_failure] at noFailure
    rcases List.mem_append.mp isChar with isHere | isLater
    · by_cases isBlankKind : kind = .blank
      · rw [isBlankKind] at taken
        obtain ⟨_, all, _⟩ := run_eq_some_iff.mp (firstLexeme?_eq_some_iff.mp taken).1
        exact .inl (all c isHere)
      · refine .inr ⟨_, mem_push_iff.mpr (.inl ⟨isBlankKind, rfl⟩), ?_⟩
        rwa [String.toList_ofList]
    · rcases inductionHypothesis noFailure isLater with blank | ⟨token, isToken, inside⟩
      · exact .inl blank
      · exact .inr ⟨token, mem_push_iff.mpr (.inr isToken), inside⟩

end Reads

end Scan

/-- Tokens of the kind have a character that ends phrases. -/
def Kind.endsPhrases (kind : Kind) : Bool :=
  [.notEqual, .atLeast, .atMost, .matching, .equal, .greater, .less, .or, .and, .closeGroup,
    .bang].contains kind

/-- Whether a lexeme ends phrases is told by its kind, unless it may hold any character or is a
keyword. -/
theorem Kind.any_endsPhrase {kind : Kind} {text lexeme : List Char}
    (found : kind.lexeme? text = some lexeme) (plain : kind ∉ [Kind.regex, .quoted, .keyword]) :
    lexeme.any endsPhrase = kind.endsPhrases := by
  cases kind with
  | regex | quoted | keyword => exact absurd (by decide) plain
  | number => exact unended_number found
  | phrase =>
    obtain ⟨same, _⟩ := phrase_eq_some_iff.mp found
    have unended : lexeme.any endsPhrase = false := by
      rw [same, List.any_eq_false]
      intro c isChar
      have inside : (!endsPhrase c) = true := mem_takeWhile_imp isChar
      simpa using inside
    exact unended
  | word =>
    obtain ⟨_, wordChars, _⟩ := run_eq_some_iff.mp found
    have unended : lexeme.any endsPhrase = false := by
      rw [List.any_eq_false]
      intro c isChar
      simp [(phraseChar_of_isWordChar (wordChars c isChar)).1]
    exact unended
  | blank =>
    obtain ⟨_, all, _⟩ := run_eq_some_iff.mp found
    have unended : lexeme.any endsPhrase = false := by
      rw [List.any_eq_false]
      intro c isChar ends
      have blank := all c isChar
      rw [isBlank_of_endsPhrase ends] at blank
      cases blank
    exact unended
  | boolean =>
    obtain ⟨rfl | rfl, _⟩ := boolean_eq_some_iff.mp found <;> decide
  | null | notEqual | atLeast | atMost | matching | equal | greater | less | or | and | openGroup
  | closeGroup | openList | closeList | comma | bang =>
    obtain ⟨rfl, _⟩ := spelled_eq_some_iff.mp found
    decide

/-- No character that ends phrases stands in the tokens. -/
def Unended (tokens : List Token) : Prop :=
  ∀ token ∈ tokens, ∀ c ∈ token.text.toList, endsPhrase c = false

/-- The tokens end in bare text, of which a word or a phrase is the first token, and nothing ends
it. -/
structure Token.LooseEnd (tokens front : List Token) (bare : Token) (tail : List Token) : Prop where
  split : tokens = front ++ bare :: tail
  isBare : bare.kind = .word ∨ bare.kind = .phrase
  unended : Unended (bare :: tail)

/-- All from a token on is one phrase. If nothing comes behind the token, the phrase is its text
with blanks. -/
structure Token.Swallowed (bare : Token) (tail : List Token) (phrase : Token) : Prop where
  isPhrase : phrase.kind = .phrase
  text : ∃ more, phrase.text.toList = bare.text.toList ++ more ∧
    (tail = [] → ∀ c ∈ more, isBlank c = true)

/-- What becomes of tokens when a blank is added to the text. -/
def Token.Spaced (tokens later : List Token) : Prop :=
  (later = tokens ∧ ∀ front bare tail, ¬ Token.LooseEnd tokens front bare tail) ∨
    ∃ front bare tail phrase, Token.LooseEnd tokens front bare tail ∧
      Token.Swallowed bare tail phrase ∧ later = front ++ [phrase]

/-- A token in front stays as it is if the text does not get loose there. -/
theorem Token.Spaced.cons {tokens later : List Token} (spaced : Token.Spaced tokens later)
    {token : Token}
    (tight : token.kind = .word ∨ token.kind = .phrase → ¬ Unended (token :: tokens)) :
    Token.Spaced (token :: tokens) (token :: later) := by
  rcases spaced with ⟨rfl, settled⟩ | ⟨front, bare, tail, phrase, loose, swallowed, rfl⟩
  · refine .inl ⟨rfl, ?_⟩
    intro front bare tail loose
    cases front with
    | nil =>
      obtain ⟨rfl, rfl⟩ := List.cons.inj loose.split
      exact tight loose.isBare loose.unended
    | cons first others =>
      obtain ⟨rfl, split⟩ := List.cons.inj loose.split
      exact settled others bare tail ⟨split, loose.isBare, loose.unended⟩
  · refine .inr ⟨token :: front, bare, tail, phrase, ⟨?_, loose.isBare, loose.unended⟩, swallowed,
      rfl⟩
    rw [loose.split]
    rfl

namespace Scan.Reads

variable {offset : Nat} {kind : Kind} {lexeme rest : List Char} {scan : Scan}

/-- Blanks in front of a text add no tokens. -/
theorem blanks {blanks text : List Char} (all : ∀ c ∈ blanks, isBlank c = true)
    (reads : Reads (offset + blanks.length) text scan) : Reads offset (blanks ++ text) scan := by
  rw [reads.eq, ← readFrom_blanks all]
  exact reads_readFrom offset _

/-- The characters of a token are characters of the text. -/
theorem mem_of_token {text : List Char} (reads : Reads offset text scan) {token : Token}
    (isToken : token ∈ scan.tokens) {c : Char} (inside : c ∈ token.text.toList) : c ∈ text := by
  induction reads with
  | done => cases isToken
  | stuck nothing => cases isToken
  | @lexeme offset kind lexeme rest scan taken further inductionHypothesis =>
    rcases mem_push_iff.mp isToken with ⟨_, rfl⟩ | isLater
    · rw [String.toList_ofList] at inside
      exact List.mem_append_left rest inside
    · exact List.mem_append_right lexeme (inductionHypothesis isLater)

/-- Nothing ends the tokens exactly if nothing ends the text. -/
theorem unended_iff {text : List Char} (reads : Reads offset text scan)
    (noFailure : scan.failure = none) :
    Unended scan.tokens ↔ ∀ c ∈ text, endsPhrase c = false := by
  constructor
  · intro unended c isChar
    cases ends : endsPhrase c with
    | false => rfl
    | true =>
      rcases reads.exists_token noFailure isChar with blank | ⟨token, isToken, inside⟩
      · rw [isBlank_of_endsPhrase ends] at blank
        cases blank
      · rw [unended token isToken c inside] at ends
        cases ends
  · intro unended token isToken c inside
    exact unended c (reads.mem_of_token isToken inside)

/-- Text without tokens is blank. -/
theorem blank_of_nil {text : List Char} (reads : Reads offset text scan)
    (noFailure : scan.failure = none) (isEmpty : scan.tokens = []) :
    ∀ c ∈ text, isBlank c = true := by
  intro c isChar
  rcases reads.exists_token noFailure isChar with blank | ⟨token, isToken, _⟩
  · exact blank
  · rw [isEmpty] at isToken
    cases isToken

section Step

variable (taken : firstLexeme? (lexeme ++ rest) = some (kind, lexeme))
  (notOpen : kind = .phrase → (lexeme ++ rest).head?.any opensDelimited = false)
  (further : Reads (offset + lexeme.length) rest scan) (noFailure : scan.failure = none)

include taken notOpen further noFailure

/-- A word or a phrase that starts text that nothing ends swallows the text and the blank. -/
theorem spaced_of_unended (isBare : kind = .word ∨ kind = .phrase)
    (unended : ∀ c ∈ lexeme ++ rest, endsPhrase c = false) :
    ∃ later, Reads offset (lexeme ++ rest ++ [' ']) later ∧ later.failure = none ∧
      Token.Spaced (scan.push kind lexeme offset).tokens later.tokens := by
  have notBlank : kind ≠ .blank := by
    rintro rfl
    exact absurd isBare (by decide)
  have tokens : (scan.push kind lexeme offset).tokens =
      ⟨kind, String.ofList lexeme, offset⟩ :: scan.tokens := by
    simp [push, notBlank]
  have swallowed := firstLexeme?_swallowed taken notOpen isBare unended
  have noneEnds := ((Reads.lexeme taken further).unended_iff (by rwa [push_failure])).mpr unended
  refine ⟨_, .single swallowed, rfl, .inr ⟨[], ⟨kind, String.ofList lexeme, offset⟩,
    scan.tokens, _, ⟨tokens, isBare, ?_⟩, ⟨rfl, ?_⟩, rfl⟩⟩
  · rwa [tokens] at noneEnds
  · refine ⟨rest ++ [' '], by simp, ?_⟩
    intro isEmpty
    exact List.forall_mem_append.mpr ⟨further.blank_of_nil noFailure isEmpty, isBlank_space⟩

/-- Any other lexeme is taken as before. -/
theorem spaced_of_ends (notBlank : kind ≠ .blank)
    (ends : kind = .word ∨ kind = .phrase → ∃ c ∈ lexeme ++ rest, endsPhrase c = true)
    {later : Scan} (laterReads : Reads (offset + lexeme.length) (rest ++ [' ']) later)
    (laterFailure : later.failure = none) (spaced : Token.Spaced scan.tokens later.tokens) :
    ∃ later, Reads offset (lexeme ++ rest ++ [' ']) later ∧ later.failure = none ∧
      Token.Spaced (scan.push kind lexeme offset).tokens later.tokens := by
  have tokens : ∀ scan : Scan, (scan.push kind lexeme offset).tokens =
      ⟨kind, String.ofList lexeme, offset⟩ :: scan.tokens := by
    simp [push, notBlank]
  have again := firstLexeme?_before_blank taken notOpen notBlank ends
  have noneEnds := (Reads.lexeme taken further).unended_iff (by rwa [push_failure])
  have tight : kind = .word ∨ kind = .phrase →
      ¬ Unended (⟨kind, String.ofList lexeme, offset⟩ :: scan.tokens) := by
    intro isBare unended
    rw [← tokens scan, noneEnds] at unended
    obtain ⟨c, isChar, endsHere⟩ := ends isBare
    rw [unended c isChar] at endsHere
    cases endsHere
  rw [List.append_assoc] at again ⊢
  refine ⟨_, .lexeme again laterReads, by rwa [push_failure], ?_⟩
  rw [tokens, tokens]
  exact spaced.cons tight

end Step

/-- What becomes of the tokens of a text when a blank is added to it. -/
theorem spaced {text : List Char} (reads : Reads offset text scan)
    (noFailure : scan.failure = none) (closed : ∀ token ∈ scan.tokens, token.IsClosed) :
    ∃ later, Reads offset (text ++ [' ']) later ∧ later.failure = none ∧
      Token.Spaced scan.tokens later.tokens := by
  induction reads with
  | @done offset =>
    have blank : Reads offset ([' '] ++ []) ⟨[], none⟩ := .blanks isBlank_space .done
    refine ⟨_, blank, rfl, .inl ⟨rfl, ?_⟩⟩
    intro front bare tail loose
    simpa using loose.split
  | stuck nothing => cases noFailure
  | @lexeme offset kind lexeme rest scan taken further inductionHypothesis =>
    rw [push_failure] at noFailure
    obtain ⟨later, laterReads, laterFailure, spaced⟩ := inductionHypothesis noFailure
      fun token isToken => closed token (mem_push_iff.mpr (.inr isToken))
    by_cases isBlankKind : kind = .blank
    · subst isBlankKind
      obtain ⟨_, all, _⟩ := run_eq_some_iff.mp (firstLexeme?_eq_some_iff.mp taken).1
      refine ⟨later, ?_, laterFailure, spaced⟩
      rw [List.append_assoc]
      exact .blanks all laterReads
    · have notOpen : kind = .phrase → (lexeme ++ rest).head?.any opensDelimited = false := by
        have nonempty := (Kind.lexeme?_prefix (firstLexeme?_eq_some_iff.mp taken).1).1
        obtain ⟨first, others, rfl⟩ := List.exists_cons_of_ne_nil nonempty
        rintro rfl
        have closedToken := closed _ (mem_push_iff.mpr (.inl ⟨isBlankKind, rfl⟩)) rfl
        rwa [String.toList_ofList] at closedToken
      by_cases loose : (kind = .word ∨ kind = .phrase) ∧ ∀ c ∈ lexeme ++ rest, endsPhrase c = false
      · exact spaced_of_unended taken notOpen further noFailure loose.1 loose.2
      · refine spaced_of_ends taken notOpen further noFailure isBlankKind ?_ laterReads
          laterFailure spaced
        intro isBare
        have ended := not_and.mp loose isBare
        simpa using ended

end Scan.Reads

end UrlFilter
