import UrlFilter.Expression.Derivation
import UrlFilter.Proofs.Numeral.Read
import UrlFilter.Proofs.Regex
import UrlFilter.Proofs.Token.Priority

/-!
# Written tokens

What is written without blanks is taken as it was written, as long as what follows it starts
with a character that goes on with no token and makes no phrase of a word.
-/

namespace UrlFilter

open UrlFilter.Text UrlFilter.Numeral UrlFilter.Lexeme

namespace Lexeme

/-- The characters that may follow a field or a literal. -/
def delimiters : List Char :=
  ['&', '^', ')', '<', ',', '\x7d', '=', '!', '>', '~', '\x7b']

/-- A field or a literal may end before the text. -/
structure Delimited (rest : List Char) : Prop where
  head : ∀ c ∈ rest.head?, c ∈ delimiters
  calm : (rest.takeWhile fun c => !endsPhrase c).any joinsWords = false

/-- Nothing at all delimits. -/
theorem Delimited.nil : Delimited [] where
  head := by simp
  calm := rfl

/-- No character of a class follows that has no delimiter. -/
theorem Delimited.stops {rest : List Char} (delimited : Delimited rest) {inClass : Char → Bool}
    (outside : delimiters.any inClass = false) : rest.head?.any inClass = false := by
  have isDelimiter := delimited.head
  cases next : rest.head? with
  | none => rfl
  | some c =>
    rw [next] at isDelimiter
    have notInClass := List.any_eq_false.mp outside c (isDelimiter c rfl)
    exact Bool.eq_false_iff.mpr notInClass

section WordChars

variable {c : Char}

theorem toNat_lt_of_isWordChar (isWord : isWordChar c = true) : c.toNat < 128 := by
  have isUpper : c.isUpper = decide (c.val ≥ 'A'.val ∧ c.val ≤ 'Z'.val) := rfl
  have isLower : c.isLower = (decide (c.val ≥ 'a'.val) && decide (c.val ≤ 'z'.val)) := rfl
  have isAlpha : c.isAlpha = (c.isUpper || c.isLower) := rfl
  simp only [isWordChar, isNameChar, Char.isAlphanum, isAlpha, isUpper, isLower,
    Char.isDigit, Bool.or_eq_true, Bool.and_eq_true, decide_eq_true_eq, beq_iff_eq] at isWord
  rcases isWord with (((upper | lower) | digit) | rfl) | rfl
  · have bound : c.toNat ≤ 90 := upper.2
    omega
  · have bound : c.toNat ≤ 122 := lower.2
    omega
  · have bound : c.toNat ≤ 57 := digit.2
    omega
  · decide
  · decide

/-- A character of a word neither ends a phrase nor joins words. -/
theorem phraseChar_of_isWordChar (isWord : isWordChar c = true) :
    endsPhrase c = false ∧ joinsWords c = false ∧ isBlank c = false :=
  of_ascii
    (fun c => isWordChar c = true →
      endsPhrase c = false ∧ joinsWords c = false ∧ isBlank c = false)
    (by decide) (toNat_lt_of_isWordChar isWord) isWord

/-- The digits among the characters of words are the ASCII ones. -/
theorem isDecimalDigit_of_isWordChar (isWord : isWordChar c = true) :
    isDecimalDigit c = c.isDigit :=
  of_ascii (fun c => isWordChar c = true → isDecimalDigit c = c.isDigit)
    (by decide) (toNat_lt_of_isWordChar isWord) isWord

/-- Of the kinds before words only four may start with a character of a word. -/
theorem kinds_of_isWordChar (isWord : isWordChar c = true) :
    ∀ other ∈ Kind.word.before, other.mayStart c = true →
      other ∈ [Kind.number, .boolean, .null, .phrase] :=
  of_ascii
    (fun c => isWordChar c = true → ∀ other ∈ Kind.word.before, other.mayStart c = true →
      other ∈ [Kind.number, .boolean, .null, .phrase])
    (by decide) (toNat_lt_of_isWordChar isWord) isWord

end WordChars

section BareWords

variable {word rest : List Char}

/-- A spelling of word characters stands at the start of a word only if the word starts
with it. -/
theorem not_isPrefixOf_append {spelling : List Char}
    (wordChars : ∀ c ∈ spelling, isWordChar c = true)
    (differs : spelling.isPrefixOf word = false) (stops : rest.head?.any isWordChar = false) :
    spelling.isPrefixOf (word ++ rest) = false := by
  induction spelling generalizing word with
  | nil => simp at differs
  | cons c others inductionHypothesis =>
    cases word with
    | nil =>
      cases rest with
      | nil => rfl
      | cons next further =>
        have different : c ≠ next := by
          rintro rfl
          have isWord := wordChars c List.mem_cons_self
          simp [isWord] at stops
        simp [List.isPrefixOf, different]
    | cons first later =>
      rw [List.cons_append]
      by_cases same : c = first
      · simp only [List.isPrefixOf, same, beq_self_eq_true, Bool.true_and] at differs ⊢
        exact inductionHypothesis (fun next isNext => wordChars next (.tail _ isNext)) differs
      · simp [List.isPrefixOf, same]

/-- What a bare word is, part by part. -/
theorem isBareWord_iff :
    isBareWord word = true ↔
      word ≠ [] ∧ (∀ c ∈ word, isWordChar c = true) ∧ startsNumber word = false ∧
        ∀ name ∈ ["true", "false", "null"], name.toList.isPrefixOf word = false := by
  simp [isBareWord, and_assoc]

/-- No number stands at the start of a bare word. -/
theorem number_of_isBareWord (bare : isBareWord word = true) (rest : List Char) :
    number (word ++ rest) = none := by
  obtain ⟨nonempty, wordChars, notNumber, _⟩ := isBareWord_iff.mp bare
  obtain ⟨c, others, rfl⟩ := List.exists_cons_of_ne_nil nonempty
  cases found : number (c :: others ++ rest) with
  | none => rfl
  | some lexeme =>
    obtain ⟨sign, whole, fraction, behind, rfl, same, isSign, isWhole, isFraction, further⟩ :=
      number_eq_some_iff.mp found
    exfalso
    rcases isSign with rfl | rfl
    · rcases isWhole with rfl | ⟨first, digits, rfl, range, _⟩
      · simp only [List.cons_append, List.nil_append, List.cons.injEq] at same
        obtain ⟨rfl, sameRest⟩ := same
        -- The digit that keeps the word from being a number would follow the zero.
        have noDigit : (others ++ rest).head?.any isDecimalDigit = false := by
          rw [sameRest]
          rcases isFraction with rfl | ⟨digits, rfl, _⟩
          · exact further.1
          · rfl
        cases others with
        | nil => simp [startsNumber] at notNumber
        | cons next later =>
          have nextWord := wordChars next (by simp)
          have digit := isDecimalDigit_of_isWordChar nextWord
          simp [startsNumber] at notNumber
          simp [digit, notNumber] at noDigit
      · simp only [List.cons_append, List.nil_append, List.cons.injEq] at same
        obtain ⟨rfl, _⟩ := same
        have notZero : c ≠ '0' := by
          rintro rfl
          exact absurd range.1 (by decide)
        rw [startsNumber.eq_3 _ _ notZero] at notNumber
        simp [range] at notNumber
    · simp only [List.cons_append, List.nil_append, List.cons.injEq] at same
      have isWord := wordChars c List.mem_cons_self
      rw [same.1] at isWord
      exact absurd isWord (by decide)

/-- No phrase stands at the start of a word that nothing joins to other words. -/
theorem phrase_of_wordChars (wordChars : ∀ c ∈ word, isWordChar c = true)
    (calm : (rest.takeWhile fun c => !endsPhrase c).any joinsWords = false) :
    phrase (word ++ rest) = none := by
  cases found : phrase (word ++ rest) with
  | none => rfl
  | some lexeme =>
    obtain ⟨same, first, others, rfl, _, joins⟩ := phrase_eq_some_iff.mp found
    have inside : ∀ c ∈ word, (!endsPhrase c) = true := by
      intro c isChar
      rw [(phraseChar_of_isWordChar (wordChars c isChar)).1]
      rfl
    have wordCalm : word.any joinsWords = false := by
      rw [List.any_eq_false]
      intro c isChar
      simp [(phraseChar_of_isWordChar (wordChars c isChar)).2.1]
    rw [List.takeWhile_append_of_pos inside] at same
    have whole : (first :: others).any joinsWords = false := by
      rw [same, List.any_append, wordCalm, calm]
      rfl
    simp [joins] at whole

/-- Words are tried right after phrases. -/
theorem before_word : Kind.word.before = Kind.phrase.before ++ [.phrase] := by
  decide

/-- No kind that is tried before phrases stands at the start of a bare word. -/
theorem untaken_of_isBareWord (bare : isBareWord word = true)
    (stops : rest.head?.any isWordChar = false) :
    ∀ other ∈ Kind.phrase.before, other.lexeme? (word ++ rest) = none := by
  obtain ⟨nonempty, wordChars, _, noName⟩ := isBareWord_iff.mp bare
  have noNumber := number_of_isBareWord bare rest
  have noSpelling : ∀ name ∈ ["true", "false", "null"], spelled name (word ++ rest) = none := by
    intro name isName
    have nameChars : ∀ c ∈ name.toList, isWordChar c = true := by
      have all : ∀ name ∈ ["true", "false", "null"], name.toList.all isWordChar = true := by
        decide
      exact List.all_eq_true.mp (all name isName)
    have differs := not_isPrefixOf_append nameChars (noName name isName) stops
    simp [spelled, differs]
  obtain ⟨c, others, rfl⟩ := List.exists_cons_of_ne_nil nonempty
  intro other isEarlier
  cases otherFound : other.lexeme? (c :: others ++ rest) with
  | none => rfl
  | some taken =>
    have beforeWord : other ∈ Kind.word.before := by
      rw [before_word]
      exact List.mem_append_left _ isEarlier
    have four := kinds_of_isWordChar (wordChars c List.mem_cons_self) other beforeWord
      (Kind.mayStart_of_lexeme? otherFound)
    rw [← otherFound]
    simp only [List.mem_cons, List.not_mem_nil, or_false] at four
    rcases four with rfl | rfl | rfl | rfl
    · exact noNumber
    · have noTrue := noSpelling "true" (by simp)
      have noFalse := noSpelling "false" (by simp)
      simp only [Kind.lexeme?, noTrue, noFalse]
      rfl
    · exact noSpelling "null" (by simp)
    · exact absurd isEarlier (by decide)

/-- A bare word is taken as a word. -/
theorem firstLexeme?_word (bare : isBareWord word = true)
    (stops : rest.head?.any isWordChar = false)
    (calm : (rest.takeWhile fun c => !endsPhrase c).any joinsWords = false) :
    firstLexeme? (word ++ rest) = some (.word, word) := by
  obtain ⟨nonempty, wordChars, _⟩ := isBareWord_iff.mp bare
  have found : Kind.word.lexeme? (word ++ rest) = some word :=
    run_eq_some_iff.mpr ⟨nonempty, wordChars, rest, rfl, stops⟩
  refine firstLexeme?_eq_some_iff.mpr ⟨found, ?_⟩
  intro other isEarlier
  rw [before_word] at isEarlier
  rcases List.mem_append.mp isEarlier with beforePhrase | isPhrase
  · exact untaken_of_isBareWord bare stops other beforePhrase
  · rw [List.mem_singleton.mp isPhrase]
    exact phrase_of_wordChars wordChars calm

/-- A bare word with something behind it that joins words is the start of a phrase. -/
theorem firstLexeme?_phrase (bare : isBareWord word = true)
    (stops : rest.head?.any isWordChar = false)
    (joins : (rest.takeWhile fun c => !endsPhrase c).any joinsWords = true) :
    firstLexeme? (word ++ rest) =
      some (.phrase, word ++ rest.takeWhile fun c => !endsPhrase c) := by
  obtain ⟨nonempty, wordChars, _⟩ := isBareWord_iff.mp bare
  have inside : ∀ c ∈ word, (!endsPhrase c) = true := by
    intro c isChar
    simp [(phraseChar_of_isWordChar (wordChars c isChar)).1]
  refine firstLexeme?_eq_some_iff.mpr ⟨?_, untaken_of_isBareWord bare stops⟩
  obtain ⟨c, others, rfl⟩ := List.exists_cons_of_ne_nil nonempty
  have notBlank := (phraseChar_of_isWordChar (wordChars c List.mem_cons_self)).2.2
  refine phrase_eq_some_iff.mpr ⟨(List.takeWhile_append_of_pos inside).symm, c,
    others ++ rest.takeWhile (fun c => !endsPhrase c), rfl, notBlank, ?_⟩
  rw [List.any_append, joins, Bool.or_true]

end BareWords

/-- A lexeme is taken where no other kind that is tried before may start. -/
theorem firstLexeme?_of_only {kind : Kind} {c : Char} {rest lexeme : List Char}
    (found : kind.lexeme? (c :: rest) = some lexeme)
    (only : ∀ other ∈ kind.before, other.mayStart c = false) :
    firstLexeme? (c :: rest) = some (kind, lexeme) := by
  refine firstLexeme?_of_start found ?_
  intro other isEarlier starts
  rw [only other isEarlier] at starts
  cases starts

/-- A character that is written for a kind is taken where only that kind may start with it. -/
theorem firstLexeme?_char {kind : Kind} {c : Char} {rest : List Char}
    (found : kind.lexeme? (c :: rest) = some [c])
    (only : ∀ other ∈ kind.before, other.mayStart c = false) :
    firstLexeme? ([c] ++ rest) = some (kind, [c]) :=
  firstLexeme?_of_only found only

theorem spelled_append (spelling : String) (rest : List Char) :
    spelled spelling (spelling.toList ++ rest) = some spelling.toList :=
  spelled_eq_some_iff.mpr ⟨rfl, rest, rfl⟩

/-- A spelling that ends in an equality sign is not found where none follows its start. -/
theorem spelled_of_not_equal {spelling : String} {c : Char} {rest : List Char}
    (characters : spelling.toList = [c, '=']) (noEqual : ∀ c ∈ rest.head?, c ≠ '=') :
    spelled spelling (c :: rest) = none := by
  rw [spelled, characters]
  cases rest with
  | nil => simp
  | cons next others =>
    have different : '=' ≠ next := (noEqual next rfl).symm
    simp [List.isPrefixOf, different]

end Lexeme

/-- A comparator is taken as it is written. -/
theorem Comparator.firstLexeme?_symbol (comparator : Comparator) {rest : List Char}
    (noEqual : ∀ c ∈ rest.head?, c ≠ '=') :
    firstLexeme? (comparator.symbol.toList ++ rest) =
      some (comparator.kind, comparator.symbol.toList) := by
  cases comparator with
  | equal => exact firstLexeme?_of_only (spelled_append "=" rest) (by decide)
  | notEqual => exact firstLexeme?_of_only (spelled_append "!=" rest) (by decide)
  | atLeast => exact firstLexeme?_of_only (spelled_append ">=" rest) (by decide)
  | atMost => exact firstLexeme?_of_only (spelled_append "<=" rest) (by decide)
  | matching => exact firstLexeme?_of_only (spelled_append "~=" rest) (by decide)
  | greater =>
    refine firstLexeme?_of_start (spelled_append ">" rest) ?_
    intro other isEarlier starts
    have only : ∀ other ∈ Kind.greater.before, other.mayStart '>' = true → other = .atLeast := by
      decide
    rw [only other isEarlier starts]
    exact spelled_of_not_equal rfl noEqual
  | less =>
    refine firstLexeme?_of_start (spelled_append "<" rest) ?_
    intro other isEarlier starts
    have only : ∀ other ∈ Kind.less.before, other.mayStart '<' = true → other = .atMost := by
      decide
    rw [only other isEarlier starts]
    exact spelled_of_not_equal rfl noEqual

/-- A limit is taken as it is written. -/
theorem Limit.firstLexeme?_symbol (limit : Limit) {rest : List Char}
    (noEqual : ∀ c ∈ rest.head?, c ≠ '=') :
    firstLexeme? (limit.symbol.toList ++ rest) = some (limit.kind, limit.symbol.toList) := by
  cases limit with
  | strict => exact Comparator.less.firstLexeme?_symbol noEqual
  | inclusive => exact Comparator.atMost.firstLexeme?_symbol noEqual

/-- An exclamation mark in front of a list is taken alone. -/
theorem firstLexeme?_bang (rest : List Char) :
    firstLexeme? ("!".toList ++ '\x7b' :: rest) = some (.bang, "!".toList) := by
  refine firstLexeme?_of_start (spelled_append "!" _) ?_
  intro other isEarlier starts
  have only : ∀ other ∈ Kind.bang.before, other.mayStart '!' = true → other = .notEqual := by
    decide
  rw [only other isEarlier starts]
  rfl

/-- The keyword of a presence clause is taken in front of an equality sign. -/
theorem firstLexeme?_presenceKeyword (present : Bool) (rest : List Char) :
    firstLexeme? ((Clause.presenceKeyword present).toList ++ '=' :: rest) =
      some (.keyword, (Clause.presenceKeyword present).toList) := by
  have nameChars : ∀ c ∈ "exists".toList, isNameChar c = true :=
    List.all_eq_true.mp (by decide)
  cases present with
  | true =>
    exact firstLexeme?_of_only
      (keyword_eq_some_iff.mpr ⟨[], "exists".toList, '=' :: rest, rfl, rfl, .inl rfl, by decide,
        nameChars, rfl⟩) (by decide)
  | false =>
    exact firstLexeme?_of_only
      (keyword_eq_some_iff.mpr ⟨['!'], "exists".toList, '=' :: rest, rfl, rfl, .inr rfl, by decide,
        nameChars, rfl⟩) (by decide)

/-- A bare word is taken in front of a delimiter. -/
theorem firstLexeme?_bareWord {word rest : List Char} (bare : isBareWord word = true)
    (delimited : Delimited rest) : firstLexeme? (word ++ rest) = some (.word, word) :=
  firstLexeme?_word bare (delimited.stops (by decide)) delimited.calm

namespace Literal

/-- The text is taken as one token, which is the literal. -/
def TakenAs (literal : Literal) (kind : Kind) (rest : List Char) : Prop :=
  firstLexeme? (literal.source.toList ++ rest) = some (kind, literal.source.toList) ∧
    ∀ offset, ofToken ⟨kind, literal.source, offset⟩ = .ok literal

/-- An integer is taken as a number. -/
theorem integer_takenAs {number : Int} (writable : (integer number).isWritable = true)
    {rest : List Char} (delimited : Delimited rest) :
    (integer number).TakenAs .number rest := by
  have short : (Nat.toDigits 10 number.natAbs).length ≤ Integer.digitLimit :=
    of_decide_eq_true writable
  have isSign : IsSign (if number < 0 then ['-'] else []) := by
    split
    · exact .inr rfl
    · exact .inl rfl
  have isWhole := isWhole_toDigits number.natAbs
  have stops : FractionStops [] rest := by
    refine ⟨delimited.stops (by decide), ?_⟩
    rintro _ others rfl
    exact absurd (delimited.head '.' rfl) (by decide)
  have characters := toList_toString number
  have found : Kind.number.lexeme? ((toString number).toList ++ rest) =
      some (toString number).toList :=
    number_eq_some_iff.mpr ⟨_, _, [], rest, by rw [characters, List.append_nil], rfl, isSign,
      isWhole, .inl rfl, stops⟩
  have noPoint : (toString number).toList.contains '.' = false := by
    rw [characters, List.contains_eq_mem, decide_eq_false_iff_not]
    exact isWhole.noPoint isSign
  constructor
  · have nonempty := (Kind.lexeme?_prefix found).1
    change firstLexeme? ((toString number).toList ++ rest) = some (_, (toString number).toList)
    obtain ⟨c, others, same⟩ := List.exists_cons_of_ne_nil nonempty
    rw [same] at found ⊢
    have starts := Kind.mayStart_of_lexeme? found
    refine firstLexeme?_of_only found ?_
    intro other isEarlier
    have only : ∀ other ∈ Kind.number.before, other = .regex ∨ other = .quoted := by decide
    rcases only other isEarlier with rfl | rfl
    all_goals
      simp only [Kind.mayStart, beq_eq_false_iff_ne]
      rintro rfl
      exact absurd starts (by decide)
  · intro offset
    have isRead := Integer.read_toString short
    change readNumber (toString number) = _
    simp only [readNumber, noPoint, Bool.false_eq_true, if_false, isRead]

/-- A string is taken with its quotes. -/
theorem quoted_takenAs {content : String} (writable : (quoted content).isWritable = true)
    (rest : List Char) : (quoted content).TakenAs .quoted rest := by
  have characters : (quoted content).source.toList = '\'' :: (content.toList ++ ['\'']) := by
    simp [source]
  have found : Kind.quoted.lexeme? ('\'' :: (content.toList ++ ['\'']) ++ rest) =
      some ('\'' :: (content.toList ++ ['\''])) :=
    quoted_eq_some_iff.mpr ⟨content.toList, rest, rfl, rfl, writable⟩
  constructor
  · rw [characters]
    exact firstLexeme?_of_only found (by decide)
  · intro offset
    have content : inside (quoted content).source = content := by
      rw [inside, characters, ← List.cons_append, List.dropLast_concat]
      simp
    change Except.ok (quoted (inside (quoted _).source)) = _
    rw [content]

/-- A regular expression is taken with its flags. -/
theorem regex_takenAs {literal : Regex} (writable : (regex literal).isWritable = true)
    {rest : List Char} (delimited : Delimited rest) : (regex literal).TakenAs .regex rest := by
  have characters : (regex literal).source.toList = _ := literal.toList_source
  have found : Kind.regex.lexeme? ((regex literal).source.toList ++ rest) =
      some (regex literal).source.toList := by
    rw [characters]
    exact regex_eq_some_iff.mpr ⟨_, _, rest, rfl, rfl, writable, Regex.isLetter_of_mem,
      delimited.stops (by decide)⟩
  constructor
  · rw [characters] at found ⊢
    exact firstLexeme?_of_only found (by decide)
  · intro offset
    have isRead := literal.ofSource_source
    change readRegex literal.source = _
    rw [readRegex, isRead]

/-- A literal that can be written is taken as one token, which is the literal. A lower bound
of a between clause is a number or a string. -/
theorem exists_takenAs {literal : Literal} (writable : literal.isWritable = true)
    {rest : List Char} (delimited : Delimited rest) :
    ∃ kind ∈ Kind.literals, literal.TakenAs kind rest ∧
      (literal.isLowerBound = true → kind ∈ [Kind.number, .quoted, .phrase]) := by
  cases literal with
  | integer number =>
    exact ⟨.number, by decide, integer_takenAs writable delimited, fun _ => by decide⟩
  | quoted content =>
    exact ⟨.quoted, by decide, quoted_takenAs writable rest, fun _ => by decide⟩
  | regex literal =>
    exact ⟨.regex, by decide, regex_takenAs writable delimited, fun isBound => by cases isBound⟩
  | boolean truth =>
    refine ⟨.boolean, by decide, ⟨?_, fun _ => by cases truth <;> rfl⟩,
      fun isBound => by cases isBound⟩
    cases truth with
    | true =>
      exact firstLexeme?_of_only (Kind.boolean_eq_some_iff.mpr ⟨.inl rfl, rest, rfl⟩) (by decide)
    | false =>
      exact firstLexeme?_of_only (Kind.boolean_eq_some_iff.mpr ⟨.inr rfl, rest, rfl⟩) (by decide)
  | null =>
    exact ⟨.null, by decide,
      ⟨firstLexeme?_of_only (spelled_append "null" rest) (by decide), fun _ => rfl⟩,
      fun isBound => by cases isBound⟩
  | word content =>
    exact ⟨.word, by decide, ⟨firstLexeme?_bareWord writable delimited, fun _ => rfl⟩,
      fun isBound => by cases isBound⟩
  | decimal => cases writable
  | phrase => cases writable

end Literal

end UrlFilter
