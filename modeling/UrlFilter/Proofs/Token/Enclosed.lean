import UrlFilter.Proofs.Token.Connected

/-!
# Texts in parentheses

In front of a parenthesis that ends the text, every lexeme is what it is at the end of the text,
also a phrase that a slash or a single quote opens: no parenthesis closes either. So a text in
parentheses has the tokens of the text, further to the right, and those of the parentheses.
-/

namespace UrlFilter

open Text Lexeme

namespace Lexeme

variable {c delimiter : Char} {text : List Char}

/-- A last character other than the delimiter closes nothing. -/
theorem delimited_snoc (notBackslash : delimiter ≠ '\\') (different : c ≠ delimiter) :
    delimited delimiter (text ++ [c]) = delimited delimiter text := by
  cases found : delimited delimiter text with
  | some body =>
    obtain ⟨inner, rest, rfl, rfl, escaped⟩ := isEscaped_of_delimited found
    rw [List.append_assoc, List.cons_append]
    exact delimited_of_isEscaped notBackslash escaped (rest ++ [c])
  | none =>
    cases longer : delimited delimiter (text ++ [c]) with
    | none => rfl
    | some body =>
      obtain ⟨inner, rest, _, same, escaped⟩ := isEscaped_of_delimited longer
      rcases List.eq_nil_or_concat rest with rfl | ⟨others, last, rfl⟩
      · have isDelimiter := (List.append_inj' same rfl).2
        exact absurd (List.cons.inj isDelimiter).1 different
      · rw [List.concat_eq_append, ← List.cons_append, ← List.append_assoc] at same
        rw [(List.append_inj' same rfl).1, delimited_of_isEscaped notBackslash escaped] at found
        cases found

/-- A last character that is no slash and no flag belongs to no regular expression. -/
theorem regex_snoc (notSlash : c ≠ '/') (notFlag : RegexFlag.isLetter c = false)
    (nonempty : text ≠ []) : regex (text ++ [c]) = regex text := by
  obtain ⟨first, rest, rfl⟩ := List.exists_cons_of_ne_nil nonempty
  by_cases isSlash : first = '/'
  · subst isSlash
    simp only [List.cons_append, regex, delimited_snoc (by decide) notSlash]
    cases found : delimited '/' rest with
    | none => rfl
    | some body =>
      obtain ⟨inner, behind, rfl, rfl, _⟩ := isEscaped_of_delimited found
      have inside : (inner ++ ['/']).length ≤ (inner ++ '/' :: behind).length := by simp
      rw [Option.map_some, Option.map_some, List.drop_append_of_le_length inside,
        takeWhile_apart notFlag]
  · simp [regex, isSlash]

/-- A last character that is no quote belongs to no string. -/
theorem quoted_snoc (notQuote : c ≠ '\'') (nonempty : text ≠ []) :
    quoted (text ++ [c]) = quoted text := by
  obtain ⟨first, rest, rfl⟩ := List.exists_cons_of_ne_nil nonempty
  by_cases isQuote : first = '\''
  · subst isQuote
    simp only [List.cons_append, quoted, delimited_snoc (by decide) notQuote]
  · simp [quoted, isQuote]

end Lexeme

/-- The parenthesis that closes a group, at the end of the text. -/
theorem closeGroup_isConnector : (')', Kind.closeGroup) ∈ connectors := by
  simp [connectors]

/-- A closing parenthesis at the end of the text does not matter to a lexeme in front of it. -/
theorem Kind.lexeme?_snoc (kind : Kind) {text : List Char} (nonempty : text ≠ []) :
    kind.lexeme? (text ++ [')']) = kind.lexeme? text := by
  obtain ⟨notFlag, apart⟩ := connector_apart closeGroup_isConnector
  by_cases isRegex : kind = .regex
  · subst isRegex
    exact regex_snoc (by decide) notFlag nonempty
  by_cases isQuoted : kind = .quoted
  · subst isQuoted
    exact quoted_snoc (by decide) nonempty
  · exact lexeme?_apart (apart kind isRegex isQuoted) nonempty

/-- What is taken from a text is taken in front of a parenthesis that ends it. -/
theorem firstLexeme?_snoc {text : List Char} (nonempty : text ≠ []) :
    firstLexeme? (text ++ [')']) = firstLexeme? text := by
  simp only [firstLexeme?, Kind.lexeme?_snoc _ nonempty]

/-- In front of a parenthesis that ends it, a text is scanned as it is by itself. -/
theorem Scan.Reads.enclose {offset : Nat} {text : List Char} {scan : Scan}
    (reads : Reads offset text scan) (noFailure : scan.failure = none) :
    Reads offset (text ++ [')']) (scan.followedBy
      (push .closeGroup [')'] (offset + text.length) ⟨[], none⟩)) := by
  induction reads with
  | done => exact .single (firstLexeme?_connector closeGroup_isConnector []).1
  | stuck nothing => cases noFailure
  | @lexeme offset kind lexeme rest scan taken _ inductionHypothesis =>
    rw [push_failure] at noFailure
    have nonempty := (Kind.lexeme?_prefix (firstLexeme?_eq_some_iff.mp taken).1).1
    have takenBefore : firstLexeme? (lexeme ++ (rest ++ [')'])) = some (kind, lexeme) := by
      rw [← List.append_assoc, firstLexeme?_snoc (List.append_ne_nil_of_left_ne_nil nonempty rest),
        taken]
    rw [push_followedBy, List.append_assoc, List.length_append, ← Nat.add_assoc]
    exact .lexeme takenBefore (inductionHypothesis noFailure)

/-- A text in parentheses has the tokens of the text between those of the parentheses. -/
theorem tokenize_enclosed {text : String} {tokens : List Token}
    (scanned : tokenize text = .ok tokens) :
    tokenize ("(" ++ text ++ ")") = .ok (⟨.openGroup, "(", 0⟩ ::
      tokens.map (Token.shift 1) ++ [⟨.closeGroup, ")", text.length + 1⟩]) := by
  obtain ⟨scan, reads, noFailure, rfl⟩ := reads_of_tokenize scanned
  have opened : ∀ rest, firstLexeme? (['('] ++ rest) = some (.openGroup, ['(']) := fun rest =>
    firstLexeme?_char rfl (by decide)
  have behind := (reads.shift 1).enclose (by simp [Scan.shift, noFailure])
  have characters : ("(" ++ text ++ ")").toList = ['('] ++ (text.toList ++ [')']) := by
    simp
  have whole : Scan.Reads 0 _ _ := .lexeme (opened _) behind
  rw [← characters] at whole
  rw [tokenize_of_reads whole]
  simp [Scan.push, Scan.followedBy, Scan.shift, Int.add_comm, String.length_toList]

end UrlFilter
