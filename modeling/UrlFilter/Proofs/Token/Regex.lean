import UrlFilter.Proofs.Token.Alone
import UrlFilter.Proofs.Token.Spaced

/-!
# Regular-expression literals as tokens

A scan looks for the slash that ends a pattern from the left, past what backslashes escape, and a
literal is read up to its last slash. No slash is a flag, so both find the same one in a token. A
literal whose pattern has a slash that nothing escapes is read back all the same, but it is no
token.
-/

namespace UrlFilter

open Text Lexeme

namespace Lexeme

/-- The text is a sequence of pairs of a backslash and a character that is not a line feed, and of
characters other than the backslash and the delimiter. -/
inductive Escaped (delimiter : Char) : List Char → Prop where
  | nil : Escaped delimiter []
  | pair {c : Char} {rest : List Char} (notNewline : c ≠ '\n') (further : Escaped delimiter rest) :
      Escaped delimiter ('\\' :: c :: rest)
  | plain {c : Char} {rest : List Char} (notBackslash : c ≠ '\\') (notDelimiter : c ≠ delimiter)
      (further : Escaped delimiter rest) : Escaped delimiter (c :: rest)

/-- Text may stand between delimiters exactly if it is such a sequence. -/
theorem isEscaped_iff {delimiter : Char} {text : List Char} :
    isEscaped delimiter text = true ↔ Escaped delimiter text := by
  constructor
  · intro escaped
    fun_induction isEscaped delimiter text with
    | case1 => exact .nil
    | case2 => cases escaped
    | case3 c rest inductionHypothesis =>
      simp only [Bool.and_eq_true, bne_iff_ne] at escaped
      exact .pair escaped.1 (inductionHypothesis escaped.2)
    | case4 c rest notLast notEscape inductionHypothesis =>
      simp only [Bool.and_eq_true, bne_iff_ne] at escaped
      exact .plain (ne_backslash notLast notEscape) escaped.1 (inductionHypothesis escaped.2)
  · intro escaped
    induction escaped with
    | nil => rfl
    | pair notNewline further inductionHypothesis =>
      simp [isEscaped, notNewline, inductionHypothesis]
    | plain notBackslash notDelimiter further inductionHypothesis =>
      simp [isEscaped_cons notBackslash, notDelimiter, inductionHypothesis]

end Lexeme

namespace Regex

/-- A token that is a regular expression is a literal, which is written as the token is. -/
theorem ofSource_token {text : String} {tokens : List Token} (scanned : tokenize text = .ok tokens)
    {token : Token} (isToken : token ∈ tokens) (isRegex : token.kind = .regex) :
    ∃ literal, ofSource token.text = .ok literal ∧ literal.source = token.text := by
  obtain ⟨_, _, takenFrom⟩ := takenFrom_of_tokenize scanned token isToken
  have found := (firstLexeme?_eq_some_iff.mp takenFrom.taken).1
  rw [isRegex] at found
  obtain ⟨pattern, flags, _, same, _, _, letters, _⟩ := regex_eq_some_iff.mp found
  exact exists_ofSource same letters

/-- A literal with an escaped pattern is one token. -/
theorem tokenize_source {literal : Regex} (escaped : isEscaped '/' literal.pattern.toList = true) :
    tokenize literal.source = .ok [⟨.regex, literal.source, 0⟩] := by
  have taken : firstLexeme? (literal.source.toList ++ []) = some (.regex, literal.source.toList) :=
    (Literal.regex_takenAs escaped .nil).1
  rw [List.append_nil] at taken
  exact tokenize_of_firstLexeme? (by decide) taken

/-- A literal that is one token has an escaped pattern. -/
theorem isEscaped_of_tokenize {literal : Regex} {token : Token}
    (scanned : tokenize literal.source = .ok [token]) (isRegex : token.kind = .regex) :
    isEscaped '/' literal.pattern.toList = true := by
  obtain ⟨scan, reads, noFailure, isTokens⟩ := reads_of_tokenize scanned
  have slash : isBlank '/' = false := by decide
  rw [toList_source] at reads
  obtain ⟨rest, _, _, isText, taken, further, noMore, sameFailure⟩ :=
    reads.first_of_not_blank slash isTokens
  have found := (firstLexeme?_eq_some_iff.mp taken).1
  rw [isRegex] at found
  obtain ⟨pattern, flags, _, isToken, _, escaped, letters, _⟩ := regex_eq_some_iff.mp found
  have restBlank := further.blank_of_nil (sameFailure.trans noFailure) noMore
  -- Behind the pattern of the token stand flags and blanks, so its slash is the last one.
  have noSlash : ∀ c ∈ flags ++ rest, c ≠ '/' := by
    rw [List.forall_mem_append]
    refine ⟨fun c isFlag => RegexFlag.ne_slash (letters c isFlag), ?_⟩
    rintro c isBehind rfl
    rw [restBlank '/' isBehind] at slash
    cases slash
  have samePattern : literal.pattern.toList = pattern := by
    have whole : literal.source.toList = '/' :: (pattern ++ '/' :: (flags ++ rest)) := by
      rw [toList_source, isText, isToken]
      simp
    have split := literal.splitSource_source
    rw [whole, splitSource_of_no_slash noSlash] at split
    exact (Prod.mk.inj split).1.symm
  rwa [samePattern]

/-- Regular expressions and their sources go together. Every token that is one is a literal, which
is written as the token is. Every pattern with flags is a literal, which is read back from its
source, and this source is one token exactly if the pattern is escaped. -/
theorem source_tokens :
    (∀ (text : String) (tokens : List Token), tokenize text = .ok tokens →
      ∀ token ∈ tokens, token.kind = .regex →
        ∃ literal, ofSource token.text = .ok literal ∧ literal.source = token.text) ∧
    ∀ pattern flags : String, (∀ c ∈ flags.toList, c ∈ "imsux".toList) →
      ∃ literal, ofParts pattern flags = .ok literal ∧
        literal.pattern = pattern ∧ literal.flagText = flags ∧
        literal.source = "/" ++ pattern ++ "/" ++ flags ∧
        ofSource literal.source = .ok literal ∧
        ((∃ token, tokenize literal.source = .ok [token] ∧ token.kind = .regex) ↔
          Escaped '/' pattern.toList) := by
  refine ⟨fun text tokens scanned token => ofSource_token scanned, ?_⟩
  intro pattern flags areFlags
  have letters : ∀ c ∈ flags.toList, RegexFlag.isLetter c = true := by
    have all : ∀ c ∈ "imsux".toList, RegexFlag.isLetter c = true :=
      List.all_eq_true.mp (by decide)
    exact fun c isFlag => all c (areFlags c isFlag)
  obtain ⟨parsed, isParsed⟩ := RegexFlag.exists_letters letters
  have isFlagText : (⟨pattern, parsed⟩ : Regex).flagText = flags := by
    rw [flagText, isParsed, String.ofList_toList]
  refine ⟨⟨pattern, parsed⟩, ?_, rfl, isFlagText, ?_, ofSource_source _, ?_⟩
  · rw [← isFlagText]
    exact ofParts_flagText ⟨pattern, parsed⟩
  · rw [source, isFlagText]
  · rw [← isEscaped_iff]
    constructor
    · rintro ⟨token, scanned, isRegex⟩
      exact isEscaped_of_tokenize scanned isRegex
    · intro escaped
      exact ⟨_, tokenize_source escaped, rfl⟩

/-- Tokens of which one is a regular expression with an escaped slash and flags. -/
def pathTokens : List Token :=
  [⟨.word, "path", 0⟩, ⟨.matching, "~=", 4⟩, ⟨.regex, "/^\\/tmp\\/xi/ix", 6⟩]

theorem source_tokens_path :
    (tokenize "path~=/^\\/tmp\\/xi/ix" = .ok pathTokens ∧
      ∃ literal, ofSource "/^\\/tmp\\/xi/ix" = .ok literal ∧
        literal.source = "/^\\/tmp\\/xi/ix") ∧
    (∃ literal, ofParts "^\\/tmp" "ix" = .ok literal ∧
      ∃ token, tokenize literal.source = .ok [token] ∧ token.kind = .regex) ∧
    ∃ literal, ofParts "^/tmp" "ix" = .ok literal ∧ ofSource literal.source = .ok literal ∧
      ¬ ∃ token, tokenize literal.source = .ok [token] ∧ token.kind = .regex := by
  have scanned : tokenize "path~=/^\\/tmp\\/xi/ix" = .ok pathTokens := by rfl
  have flags : ∀ c ∈ "ix".toList, c ∈ "imsux".toList := by simp
  refine ⟨⟨scanned, ?_⟩, ?_, ?_⟩
  · exact source_tokens.1 _ _ scanned ⟨.regex, "/^\\/tmp\\/xi/ix", 6⟩ (by decide) rfl
  · obtain ⟨literal, isLiteral, _, _, _, _, single⟩ := source_tokens.2 "^\\/tmp" "ix" flags
    exact ⟨literal, isLiteral, single.mpr (isEscaped_iff.mp (by decide))⟩
  · obtain ⟨literal, isLiteral, _, _, _, isRead, single⟩ := source_tokens.2 "^/tmp" "ix" flags
    refine ⟨literal, isLiteral, isRead, ?_⟩
    rw [single, ← isEscaped_iff]
    decide

end Regex

end UrlFilter
