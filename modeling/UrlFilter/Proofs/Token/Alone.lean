import UrlFilter.Proofs.Numeral.Digits
import UrlFilter.Proofs.Token.Cover

/-!
# Tokens as texts of their own

The text of a token has that token alone. A lexeme is found again when what follows it is cut
away, and a kind that is tried earlier finds nothing there that it did not find before. Only
numbers look behind their end: a zero is no number where a digit follows. Such a digit starts
no lexeme, so the text would have no tokens.
-/

namespace UrlFilter

open Text Lexeme

variable {kind : Kind} {text lexeme rest : List Char}

namespace Kind

/-- A lexeme is found again when what follows it is cut away. -/
theorem lexeme?_alone (found : kind.lexeme? (lexeme ++ rest) = some lexeme) :
    kind.lexeme? lexeme = some lexeme := by
  have ends : lexeme = lexeme ++ [] := (List.append_nil _).symm
  cases kind with
  | regex =>
    obtain ⟨pattern, flags, _, same, _, escaped, letters, _⟩ := regex_eq_some_iff.mp found
    exact regex_eq_some_iff.mpr ⟨pattern, flags, [], same, ends, escaped, letters, rfl⟩
  | quoted =>
    obtain ⟨content, _, same, _, escaped⟩ := quoted_eq_some_iff.mp found
    exact quoted_eq_some_iff.mpr ⟨content, [], same, ends, escaped⟩
  | number =>
    obtain ⟨sign, whole, fraction, _, same, _, isSign, isWhole, isFraction, _⟩ :=
      number_eq_some_iff.mp found
    have stops : FractionStops fraction [] := ⟨rfl, fun _ _ some? => by cases some?⟩
    exact number_eq_some_iff.mpr
      ⟨sign, whole, fraction, [], same, ends, isSign, isWhole, isFraction, stops⟩
  | keyword =>
    obtain ⟨mark, name, _, same, _, isMark, nonempty, nameChars, _⟩ :=
      keyword_eq_some_iff.mp found
    exact keyword_eq_some_iff.mpr ⟨mark, name, [], same, ends, isMark, nonempty, nameChars, rfl⟩
  | phrase =>
    obtain ⟨same, first, others, isCons, notBlank, joins⟩ := phrase_eq_some_iff.mp found
    have inside : ∀ c ∈ lexeme, (!endsPhrase c) = true := by
      rw [same]
      exact fun c => mem_takeWhile_imp
    have whole : (lexeme ++ []).takeWhile (fun c => !endsPhrase c) = lexeme :=
      takeWhile_append_stop inside rfl
    rw [List.append_nil] at whole
    exact phrase_eq_some_iff.mpr ⟨whole.symm, first, others, isCons, notBlank, joins⟩
  | word | blank =>
    obtain ⟨nonempty, all, _⟩ := run_eq_some_iff.mp found
    exact run_eq_some_iff.mpr ⟨nonempty, all, [], ends, rfl⟩
  | boolean =>
    obtain ⟨isSpelled, _⟩ := boolean_eq_some_iff.mp found
    exact boolean_eq_some_iff.mpr ⟨isSpelled, [], ends⟩
  | null | notEqual | atLeast | atMost | matching | equal | greater | less | or | and | openGroup
  | closeGroup | openList | closeList | comma | bang =>
    obtain ⟨isSpelled, _⟩ := spelled_eq_some_iff.mp found
    exact spelled_eq_some_iff.mpr ⟨isSpelled, [], ends⟩

/-- Where a kind other than number has a lexeme, it has one whatever is added at the end. -/
theorem lexeme?_append (notNumber : kind ≠ .number) (found : kind.lexeme? text = some lexeme)
    (rest : List Char) : ∃ longer, kind.lexeme? (text ++ rest) = some longer := by
  cases kind with
  | number => exact absurd rfl notNumber
  | regex =>
    obtain ⟨pattern, flags, behind, rfl, rfl, escaped, _⟩ := regex_eq_some_iff.mp found
    have body := delimited_of_isEscaped (by decide) escaped (flags ++ (behind ++ rest))
    simp [lexeme?, Lexeme.regex, body]
  | quoted =>
    obtain ⟨content, behind, rfl, rfl, escaped⟩ := quoted_eq_some_iff.mp found
    have body := delimited_of_isEscaped (by decide) escaped (behind ++ rest)
    simp [lexeme?, Lexeme.quoted, body]
  | keyword =>
    obtain ⟨mark, name, behind, rfl, rfl, isMark, nonempty, nameChars, _⟩ :=
      keyword_eq_some_iff.mp found
    obtain ⟨longer, nameFound⟩ := exists_run nonempty nameChars (behind ++ rest)
    obtain ⟨longerNonempty, longerChars, after, same, stops⟩ := run_eq_some_iff.mp nameFound
    refine ⟨'$' :: (mark ++ longer), keyword_eq_some_iff.mpr ⟨mark, longer, after, rfl, ?_,
      isMark, longerNonempty, longerChars, stops⟩⟩
    simp [same]
  | phrase =>
    obtain ⟨same, first, others, rfl, notBlank, joins⟩ := phrase_eq_some_iff.mp found
    obtain ⟨more, isLonger⟩ : ∃ more,
        ((text ++ rest).takeWhile fun c => !endsPhrase c) = first :: (others ++ more) := by
      rw [List.takeWhile_append]
      split
      · next inside =>
        have whole : first :: others = text := by
          rw [same]
          exact (List.takeWhile_prefix _).eq_of_length inside
        exact ⟨_, by rw [← whole]; rfl⟩
      · exact ⟨[], by rw [← same, List.append_nil]⟩
    exact ⟨first :: (others ++ more), phrase_eq_some_iff.mpr
      ⟨isLonger.symm, first, others ++ more, rfl, notBlank, by simp [List.any_append, joins]⟩⟩
  | word | blank =>
    obtain ⟨nonempty, all, behind, rfl, _⟩ := run_eq_some_iff.mp found
    rw [List.append_assoc]
    exact exists_run nonempty all (behind ++ rest)
  | boolean =>
    obtain ⟨isSpelled, behind, rfl⟩ := boolean_eq_some_iff.mp found
    exact ⟨lexeme, boolean_eq_some_iff.mpr ⟨isSpelled, behind ++ rest, List.append_assoc ..⟩⟩
  | null | notEqual | atLeast | atMost | matching | equal | greater | less | or | and | openGroup
  | closeGroup | openList | closeList | comma | bang =>
    obtain ⟨isSpelled, behind, rfl⟩ := spelled_eq_some_iff.mp found
    exact ⟨lexeme, spelled_eq_some_iff.mpr ⟨isSpelled, behind ++ rest, List.append_assoc ..⟩⟩

end Kind

namespace Lexeme

/-- The digits before the point are lost only if the text is a zero and a digit is added. -/
theorem wholePart_append {whole : List Char} (found : wholePart text = some whole)
    (lost : wholePart (text ++ rest) = none) :
    text = ['0'] ∧ rest.head?.any isDecimalDigit = true := by
  obtain ⟨behind, rfl, rfl | ⟨c, digits, rfl, range, _⟩, noDigit⟩ :=
    wholePart_eq_some_iff.mp found
  · have digit : (behind ++ rest).head?.any isDecimalDigit = true := by
      simpa [wholePart] using lost
    cases behind with
    | nil => exact ⟨rfl, digit⟩
    | cons next others =>
      have same : (next :: others ++ rest).head? = (next :: others).head? := rfl
      rw [same, noDigit] at digit
      cases digit
  · have notZero : c ≠ '0' := by
      rintro rfl
      exact absurd range.1 (by decide)
    rw [List.cons_append, List.cons_append, wholePart.eq_3 _ _ notZero, if_pos range] at lost
    cases lost

/-- A number is lost only if the text is a zero and a digit is added. -/
theorem number_append (found : number text = some lexeme) (lost : number (text ++ rest) = none) :
    (∃ sign, IsSign sign ∧ text = sign ++ ['0']) ∧ rest.head?.any isDecimalDigit = true := by
  unfold number at found
  split at found
  · next unsigned =>
    obtain ⟨_, unsignedFound, _⟩ := Option.map_eq_some_iff.mp found
    obtain ⟨_, wholeFound, _⟩ := Option.map_eq_some_iff.mp unsignedFound
    have wholeLost : wholePart (unsigned ++ rest) = none := by
      simpa [number, unsignedNumber] using lost
    obtain ⟨rfl, digit⟩ := wholePart_append wholeFound wholeLost
    exact ⟨⟨['-'], .inr rfl, rfl⟩, digit⟩
  · next noSign =>
    obtain ⟨_, wholeFound, _⟩ := Option.map_eq_some_iff.mp found
    have stillNoSign : number (text ++ rest) = unsignedNumber (text ++ rest) := by
      cases text with
      | nil => cases wholeFound
      | cons c others =>
        have notSign : c ≠ '-' := by
          rintro rfl
          exact noSign others rfl
        simp [number, notSign]
    have wholeLost : wholePart (text ++ rest) = none := by
      rw [stillNoSign] at lost
      exact Option.map_eq_none_iff.mp lost
    obtain ⟨rfl, digit⟩ := wholePart_append wholeFound wholeLost
    exact ⟨⟨[], .inl rfl, rfl⟩, digit⟩

/-- A character that is no blank and does not end a phrase may stand in front of a phrase. -/
theorem phrase_cons {c : Char} (found : phrase text = some lexeme)
    (inside : endsPhrase c = false) (notBlank : isBlank c = false) :
    phrase (c :: text) = some (c :: lexeme) := by
  obtain ⟨same, first, others, rfl, _, joins⟩ := phrase_eq_some_iff.mp found
  refine phrase_eq_some_iff.mpr ⟨?_, c, first :: others, rfl, notBlank, ?_⟩
  · rw [List.takeWhile_cons, inside, same]
    rfl
  · rw [List.any_cons, joins, Bool.or_true]

end Lexeme

/-- Only a phrase may start with a decimal digit that belongs to no word. -/
theorem Kind.eq_phrase_of_isDecimalDigit {c : Char} (digit : isDecimalDigit c = true)
    (notWord : isWordChar c = false) (may : kind.mayStart c = true) : kind = .phrase := by
  have notDigit : ∀ sign, isDecimalDigit sign = false → c ≠ sign := by
    rintro sign noDigit rfl
    rw [noDigit] at digit
    cases digit
  cases kind with
  | phrase => rfl
  | word => simp [mayStart, notWord] at may
  | blank => simp [mayStart, isBlank_of_isDecimalDigit digit] at may
  | number =>
    have isDigit : c.isDigit = true := by
      simpa [mayStart, notDigit '-' (by decide)] using may
    simp [isWordChar, isNameChar, Char.isAlphanum, isDigit] at notWord
  | boolean =>
    simp [mayStart, notDigit 't' (by decide), notDigit 'f' (by decide)] at may
  | regex | quoted | null | notEqual | atLeast | atMost | matching | equal | greater | less | or
  | and | openGroup | closeGroup | openList | closeList | comma | bang | keyword =>
    simp only [mayStart, beq_iff_eq] at may
    exact absurd may (notDigit _ (by decide))

/-- A zero in front of a digit is no word of its own where something is taken behind it. -/
theorem zero_not_word (digit : rest.head?.any isDecimalDigit = true)
    (goesOn : firstLexeme? rest ≠ none) : firstLexeme? ('0' :: rest) ≠ some (.word, ['0']) := by
  intro taken
  obtain ⟨found, untaken⟩ := firstLexeme?_eq_some_iff.mp taken
  have isRun : run isWordChar ('0' :: rest) = some ['0'] := found
  obtain ⟨_, _, behind, same, stops⟩ := run_eq_some_iff.mp isRun
  obtain rfl : rest = behind := by simpa using same
  cases rest with
  | nil => cases digit
  | cons c others =>
    have isDigit : isDecimalDigit c = true := by simpa using digit
    have notWord : isWordChar c = false := by simpa using stops
    obtain ⟨⟨next, later⟩, nextTaken⟩ := Option.ne_none_iff_exists'.mp goesOn
    have nextFound := (firstLexeme?_eq_some_iff.mp nextTaken).1
    obtain rfl := Kind.eq_phrase_of_isDecimalDigit isDigit notWord
      (Kind.mayStart_of_lexeme? nextFound)
    -- The phrase behind the zero would have taken the zero too.
    have zeroPhrase : phrase ('0' :: c :: others) = some ('0' :: later) :=
      phrase_cons nextFound (by decide) (by decide)
    have noPhrase : phrase ('0' :: c :: others) = none := untaken .phrase (by decide)
    rw [noPhrase] at zeroPhrase
    cases zeroPhrase

/-- Where another kind was taken although numbers are tried before it, its lexeme has no number
at its start. -/
theorem number_alone (taken : firstLexeme? (lexeme ++ rest) = some (kind, lexeme))
    (isEarlier : Kind.number ∈ kind.before) (goesOn : rest ≠ [] → firstLexeme? rest ≠ none) :
    number lexeme = none := by
  obtain ⟨found, untaken⟩ := firstLexeme?_eq_some_iff.mp taken
  cases numberFound : number lexeme with
  | none => rfl
  | some digits =>
    exfalso
    obtain ⟨⟨sign, isSign, rfl⟩, digit⟩ := number_append numberFound (untaken .number isEarlier)
    have isKind : kind = .phrase ∨ kind = .word := by
      have starts : kind.mayStart '0' = true ∨ kind.mayStart '-' = true := by
        rcases isSign with rfl | rfl
        · exact .inl (Kind.mayStart_of_lexeme? found)
        · exact .inr (Kind.mayStart_of_lexeme? found)
      revert isEarlier starts
      cases kind <;> decide
    rcases isKind with rfl | rfl
    · obtain ⟨_, first, others, same, _, joins⟩ := phrase_eq_some_iff.mp found
      rcases isSign with rfl | rfl
      · cases same
        cases joins
      · cases same
        exact absurd joins (by decide)
    · obtain ⟨_, wordChars, _⟩ := run_eq_some_iff.mp found
      rcases isSign with rfl | rfl
      · have nonempty : rest ≠ [] := by
          rintro rfl
          cases digit
        exact zero_not_word digit (goesOn nonempty) taken
      · exact absurd (wordChars '-' List.mem_cons_self) (by decide)

/-- A lexeme is taken from its own text if something is taken from what follows it. -/
theorem firstLexeme?_alone (taken : firstLexeme? (lexeme ++ rest) = some (kind, lexeme))
    (goesOn : rest ≠ [] → firstLexeme? rest ≠ none) :
    firstLexeme? lexeme = some (kind, lexeme) := by
  obtain ⟨found, untaken⟩ := firstLexeme?_eq_some_iff.mp taken
  refine firstLexeme?_eq_some_iff.mpr ⟨Kind.lexeme?_alone found, ?_⟩
  intro other isEarlier
  by_cases isNumber : other = .number
  · subst isNumber
    exact number_alone taken isEarlier goesOn
  · cases otherFound : other.lexeme? lexeme with
    | none => rfl
    | some shorter =>
      obtain ⟨longer, stillFound⟩ := Kind.lexeme?_append isNumber otherFound rest
      rw [untaken other isEarlier] at stillFound
      cases stillFound

namespace Scan.Reads

variable {offset : Nat} {scan : Scan}

/-- A scan of all of a text takes something from it unless it is empty. -/
theorem goesOn (reads : Reads offset text scan) (noFailure : scan.failure = none)
    (nonempty : text ≠ []) : firstLexeme? text ≠ none := by
  cases reads with
  | done => exact absurd rfl nonempty
  | stuck nothing => cases noFailure
  | lexeme taken further =>
    rw [taken]
    exact Option.some_ne_none _

/-- Every token of a scan of all of a text is taken from its own text. -/
theorem takenAlone (reads : Reads offset text scan) (noFailure : scan.failure = none) :
    ∀ token ∈ scan.tokens, token.kind ≠ .blank ∧
      firstLexeme? token.text.toList = some (token.kind, token.text.toList) := by
  induction reads with
  | done => simp
  | stuck nothing => simp
  | @lexeme offset kind lexeme rest scan taken further inductionHypothesis =>
    rw [push_failure] at noFailure
    intro token isToken
    rcases mem_push_iff.mp isToken with ⟨notBlank, rfl⟩ | isLater
    · have alone := firstLexeme?_alone taken (further.goesOn noFailure)
      exact ⟨notBlank, by simpa [String.toList_ofList] using alone⟩
    · exact inductionHypothesis noFailure token isLater

end Scan.Reads

/-- A text that is one lexeme is one token. -/
theorem tokenize_of_firstLexeme? {text : String} (notBlank : kind ≠ .blank)
    (taken : firstLexeme? text.toList = some (kind, text.toList)) :
    tokenize text = .ok [⟨kind, text, 0⟩] := by
  rw [tokenize_of_reads (.single taken)]
  simp [Scan.push, notBlank, String.ofList_toList]

/-- The text of a token has that token alone, at its start. -/
theorem tokenize_token {text : String} {tokens : List Token}
    (scanned : tokenize text = .ok tokens) :
    ∀ token ∈ tokens, tokenize token.text = .ok [⟨token.kind, token.text, 0⟩] := by
  obtain ⟨scan, reads, noFailure, rfl⟩ := reads_of_tokenize scanned
  intro token isToken
  obtain ⟨notBlank, taken⟩ := reads.takenAlone noFailure token isToken
  exact tokenize_of_firstLexeme? notBlank taken

/-- Tokens that start with a zero and are no numbers. -/
def zeroTokens : List Token :=
  [⟨.phrase, "0३ b", 0⟩, ⟨.and, "&", 4⟩, ⟨.word, "n", 5⟩, ⟨.equal, "=", 6⟩, ⟨.word, "007", 7⟩]

theorem tokenize_token_zeroTokens :
    tokenize "0३ b&n=007" = .ok zeroTokens ∧
      ⟨.phrase, "0३ b", 0⟩ ∈ zeroTokens ∧ tokenize "0३ b" = .ok [⟨.phrase, "0३ b", 0⟩] ∧
      ⟨.word, "007", 7⟩ ∈ zeroTokens ∧ tokenize "007" = .ok [⟨.word, "007", 0⟩] := by
  have scanned : tokenize "0३ b&n=007" = .ok zeroTokens := by rfl
  have isPhrase : (⟨.phrase, "0३ b", 0⟩ : Token) ∈ zeroTokens := by decide
  have isWord : (⟨.word, "007", 7⟩ : Token) ∈ zeroTokens := by decide
  exact ⟨scanned, isPhrase, tokenize_token scanned _ isPhrase, isWord,
    tokenize_token scanned _ isWord⟩

end UrlFilter
