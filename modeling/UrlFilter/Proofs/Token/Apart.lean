import UrlFilter.Proofs.Numeral.Digits
import UrlFilter.Proofs.Token.Priority

/-!
# Lexemes that end before a separator

Behind its first character a lexeme has characters of certain classes only. Where a character
outside them follows a text, a kind has there the lexeme that it has in the text alone, whatever
comes after the character. Regular expressions and strings may hold any character: where one is
taken its end is known, but an opening slash or quote that nothing closes looks ahead without end.
-/

namespace UrlFilter

open Text Lexeme

variable {c : Char} {text back : List Char}

/-- What is taken from a list does not depend on what comes after an item outside the class. -/
theorem takeWhile_apart {inClass : Char → Bool} (outside : inClass c = false) :
    (text ++ c :: back).takeWhile inClass = text.takeWhile inClass := by
  induction text with
  | nil => simp [outside]
  | cons first others inductionHypothesis =>
    rw [List.cons_append, List.takeWhile_cons, List.takeWhile_cons, inductionHypothesis]

/-- Nor does it matter for the question whether an item of the class is next. -/
theorem head?_any_apart {inClass : Char → Bool} (outside : inClass c = false) :
    (text ++ c :: back).head?.any inClass = text.head?.any inClass := by
  cases text with
  | nil => simpa using outside
  | cons first others => rfl

namespace Lexeme

/-- A run ends before a character outside of its class. -/
theorem run_apart {inClass : Char → Bool} (outside : inClass c = false) :
    run inClass (text ++ c :: back) = run inClass text := by
  simp only [run, takeWhile_apart outside]

/-- A spelling ends before a character that it does not have. -/
theorem isPrefixOf_apart {spelling : List Char} (outside : c ∉ spelling) :
    spelling.isPrefixOf (text ++ c :: back) = spelling.isPrefixOf text := by
  induction spelling generalizing text with
  | nil => simp
  | cons first others inductionHypothesis =>
    rw [List.mem_cons, not_or] at outside
    cases text with
    | nil =>
      have different : (first == c) = false := beq_false_of_ne (Ne.symm outside.1)
      simp [List.isPrefixOf, different]
    | cons next later =>
      rw [List.cons_append, List.isPrefixOf, List.isPrefixOf, inductionHypothesis outside.2]

/-- Where there is a first character already, only the others matter. -/
theorem spelled_apart {spelling : String} (outside : spelling.toList.tail.contains c = false)
    (nonempty : text ≠ []) : spelled spelling (text ++ c :: back) = spelled spelling text := by
  obtain ⟨next, later, rfl⟩ := List.exists_cons_of_ne_nil nonempty
  have same : spelling.toList.isPrefixOf (next :: later ++ c :: back) =
      spelling.toList.isPrefixOf (next :: later) := by
    cases characters : spelling.toList with
    | nil => simp
    | cons first others =>
      have notOther : c ∉ others := by simpa [characters] using outside
      rw [List.cons_append, List.isPrefixOf, List.isPrefixOf, isPrefixOf_apart notOther]
  rw [spelled, spelled, same]

section Numbers

variable (noDigit : isDecimalDigit c = false)

include noDigit

/-- Without a digit there are no digits before the point. -/
theorem wholePart_of_not_digit : wholePart (c :: back) = none := by
  cases found : wholePart (c :: back) with
  | none => rfl
  | some whole =>
    obtain ⟨rest, same, isWhole, _⟩ := wholePart_eq_some_iff.mp found
    obtain ⟨first, others, rfl, isDigit⟩ := isWhole.head
    cases same
    rw [isDecimalDigit_of_isDigit isDigit] at noDigit
    cases noDigit

/-- A whole part ends before a character that is no digit. -/
theorem wholePart_apart : wholePart (text ++ c :: back) = wholePart text := by
  cases text with
  | nil => exact wholePart_of_not_digit noDigit
  | cons first others =>
    rw [List.cons_append]
    by_cases isZero : first = '0'
    · subst isZero
      simp only [wholePart, head?_any_apart noDigit]
    · rw [wholePart.eq_3 _ _ isZero, wholePart.eq_3 _ _ isZero, takeWhile_apart noDigit]

/-- A fraction ends before a character that is neither a digit nor a point. -/
theorem fractionPart_apart (noPoint : c ≠ '.') :
    fractionPart (text ++ c :: back) = fractionPart text := by
  have nothing : ∀ {first : Char} {others : List Char}, first ≠ '.' →
      fractionPart (first :: others) = [] := by
    intro first others different
    simp [fractionPart, different]
  cases text with
  | nil => exact nothing noPoint
  | cons first others =>
    rw [List.cons_append]
    by_cases isPoint : first = '.'
    · subst isPoint
      simp only [fractionPart, takeWhile_apart noDigit]
    · rw [nothing isPoint, nothing isPoint]

/-- A number without a sign ends before such a character. -/
theorem unsignedNumber_apart (noPoint : c ≠ '.') :
    unsignedNumber (text ++ c :: back) = unsignedNumber text := by
  rw [unsignedNumber, unsignedNumber, wholePart_apart noDigit]
  cases found : wholePart text with
  | none => rfl
  | some whole =>
    obtain ⟨rest, rfl, _⟩ := wholePart_eq_some_iff.mp found
    rw [Option.map_some, Option.map_some, List.append_assoc, List.drop_left, List.drop_left,
      fractionPart_apart noDigit noPoint]

/-- Behind some text, a number ends before such a character. -/
theorem number_apart (noPoint : c ≠ '.') (nonempty : text ≠ []) :
    number (text ++ c :: back) = number text := by
  obtain ⟨first, others, rfl⟩ := List.exists_cons_of_ne_nil nonempty
  have same : ∀ digits, unsignedNumber (digits ++ c :: back) = unsignedNumber digits :=
    fun digits => unsignedNumber_apart noDigit noPoint
  by_cases isSign : first = '-'
  · subst isSign
    simp [number, same]
  · have sameAll := same (first :: others)
    rw [List.cons_append] at sameAll
    simp [number, isSign, sameAll]

end Numbers

/-- Behind some text, a keyword ends before a character that neither belongs to a name nor negates
one. -/
theorem keyword_apart (noName : isNameChar c = false) (noMark : c ≠ '!') (nonempty : text ≠ []) :
    keyword (text ++ c :: back) = keyword text := by
  obtain ⟨first, others, rfl⟩ := List.exists_cons_of_ne_nil nonempty
  have same : ∀ name, run isNameChar (name ++ c :: back) = run isNameChar name :=
    fun name => run_apart noName
  by_cases isDollar : first = '$'
  · subst isDollar
    cases others with
    | nil =>
      have nothing := same []
      rw [List.nil_append] at nothing
      simp [keyword, noMark, nothing]
    | cons next later =>
      have sameNext := same (next :: later)
      rw [List.cons_append] at sameNext
      by_cases isMark : next = '!'
      · subst isMark
        simp [keyword, same]
      · simp [keyword, isMark, sameNext]
  · simp [keyword, isDollar]

/-- A phrase ends before a character that ends phrases. -/
theorem phrase_apart (ends : endsPhrase c = true) : phrase (text ++ c :: back) = phrase text := by
  have same : (text ++ c :: back).takeWhile (fun c => !endsPhrase c) =
      text.takeWhile fun c => !endsPhrase c :=
    takeWhile_apart (by simp [ends])
  rw [phrase, phrase, same]

end Lexeme

namespace Kind

/-- A lexeme of the kind may have the character behind its first one. -/
def mayGoOn : Kind → Char → Bool
  | .regex, _ | .quoted, _ => true
  | .phrase, c => !endsPhrase c
  | .number, c => c == '.' || isDecimalDigit c
  | .boolean, c => "true".toList.tail.contains c || "false".toList.tail.contains c
  | .null, c => "null".toList.tail.contains c
  | .notEqual, c | .atLeast, c | .atMost, c | .matching, c => c == '='
  | .keyword, c => c == '!' || isNameChar c
  | .word, c => isWordChar c
  | .blank, c => isBlank c
  | .equal, _ | .greater, _ | .less, _ | .or, _ | .and, _ | .openGroup, _ | .closeGroup, _
  | .openList, _ | .closeList, _ | .comma, _ | .bang, _ => false

/-- What comes after a character that no lexeme of the kind goes on with does not matter. -/
theorem lexeme?_apart {kind : Kind} (apart : kind.mayGoOn c = false) (nonempty : text ≠ []) :
    kind.lexeme? (text ++ c :: back) = kind.lexeme? text := by
  cases kind with
  | regex | quoted => cases apart
  | phrase =>
    have ends : endsPhrase c = true := by simpa [mayGoOn] using apart
    exact phrase_apart ends
  | number =>
    simp only [mayGoOn, Bool.or_eq_false_iff, beq_eq_false_iff_ne] at apart
    exact number_apart apart.2 apart.1 nonempty
  | keyword =>
    simp only [mayGoOn, Bool.or_eq_false_iff, beq_eq_false_iff_ne] at apart
    exact keyword_apart apart.2 apart.1 nonempty
  | word | blank => exact run_apart apart
  | boolean =>
    simp only [mayGoOn, Bool.or_eq_false_iff] at apart
    simp only [lexeme?, spelled_apart apart.1 nonempty, spelled_apart apart.2 nonempty]
  | null => exact spelled_apart apart nonempty
  | notEqual | atLeast | atMost | matching =>
    have different : ['='].contains c = false := by simpa [mayGoOn] using apart
    exact spelled_apart different nonempty
  | equal | greater | less | or | and | openGroup | closeGroup | openList | closeList | comma
  | bang => exact spelled_apart rfl nonempty

end Kind

namespace Lexeme

variable {lexeme : List Char}

/-- A regular expression ends where it did if the character is no flag. -/
theorem regex_apart (notFlag : RegexFlag.isLetter c = false) (found : regex text = some lexeme) :
    regex (text ++ c :: back) = some lexeme := by
  obtain ⟨pattern, flags, rest, rfl, rfl, escaped, letters, stops⟩ := regex_eq_some_iff.mp found
  refine regex_eq_some_iff.mpr ⟨pattern, flags, rest ++ c :: back, rfl, List.append_assoc ..,
    escaped, letters, ?_⟩
  rw [head?_any_apart notFlag, stops]

/-- A string ends where it did. -/
theorem quoted_apart (found : quoted text = some lexeme) :
    quoted (text ++ back) = some lexeme := by
  obtain ⟨content, rest, rfl, rfl, escaped⟩ := quoted_eq_some_iff.mp found
  exact quoted_eq_some_iff.mpr ⟨content, rest ++ back, rfl, List.append_assoc .., escaped⟩

/-- The character opens a regular expression or a string. -/
def opensDelimited (c : Char) : Bool :=
  c == '/' || c == '\''

end Lexeme

/-- Where a regular expression or a string may start, only a phrase is tried later. -/
theorem Kind.eq_phrase_of_opens {kind other : Kind} (isEarlier : other ∈ kind.before)
    (isDelimited : other = .regex ∨ other = .quoted) (otherStarts : other.mayStart c = true)
    (starts : kind.mayStart c = true) : kind = .phrase ∧ opensDelimited c = true := by
  rcases isDelimited with rfl | rfl
  · obtain rfl : c = '/' := by simpa [mayStart] using otherStarts
    revert isEarlier starts
    cases kind <;> decide
  · obtain rfl : c = '\'' := by simpa [mayStart] using otherStarts
    revert isEarlier starts
    cases kind <;> decide

section Taken

variable {kind : Kind} {lexeme : List Char} (taken : firstLexeme? text = some (kind, lexeme))
  (closed : kind = .phrase → text.head?.any opensDelimited = false)

include taken closed

/-- Where what opens is closed, regular expressions and strings are found as before. -/
theorem delimited_apart (notFlag : RegexFlag.isLetter c = false) {other : Kind}
    (isTried : other ∈ kind :: kind.before) (isDelimited : other = .regex ∨ other = .quoted) :
    other.lexeme? (text ++ c :: back) = other.lexeme? text := by
  obtain ⟨found, untaken⟩ := firstLexeme?_eq_some_iff.mp taken
  have nonempty : text ≠ [] := by
    obtain ⟨filled, rest, rfl⟩ := Kind.lexeme?_prefix found
    simp [filled]
  obtain ⟨first, others, rfl⟩ := List.exists_cons_of_ne_nil nonempty
  rcases List.mem_cons.mp isTried with rfl | isEarlier
  · rcases isDelimited with rfl | rfl
    · exact (regex_apart notFlag found).trans found.symm
    · exact (quoted_apart found).trans found.symm
  · -- The text does not start with the delimiter, since only a phrase could be taken then.
    rw [untaken other isEarlier]
    cases otherFound : other.lexeme? (first :: others ++ c :: back) with
    | none => rfl
    | some longer =>
      exfalso
      obtain ⟨isPhrase, opens⟩ := Kind.eq_phrase_of_opens isEarlier isDelimited
        (Kind.mayStart_of_lexeme? otherFound) (Kind.mayStart_of_lexeme? found)
      have closes : opensDelimited first = false := closed isPhrase
      rw [opens] at closes
      cases closes

/-- The lexeme that is taken from a text is taken in front of a character that goes on with no
lexeme. -/
theorem firstLexeme?_apart (notFlag : RegexFlag.isLetter c = false)
    (apart : ∀ other ∈ kind :: kind.before, other ≠ .regex → other ≠ .quoted →
      other.lexeme? (text ++ c :: back) = other.lexeme? text) :
    firstLexeme? (text ++ c :: back) = some (kind, lexeme) := by
  have same : ∀ other ∈ kind :: kind.before,
      other.lexeme? (text ++ c :: back) = other.lexeme? text := by
    intro other isTried
    by_cases isDelimited : other = .regex ∨ other = .quoted
    · exact delimited_apart taken closed notFlag isTried isDelimited
    · rw [not_or] at isDelimited
      exact apart other isTried isDelimited.1 isDelimited.2
  obtain ⟨found, untaken⟩ := firstLexeme?_eq_some_iff.mp taken
  refine firstLexeme?_eq_some_iff.mpr ⟨?_, ?_⟩
  · rw [same kind List.mem_cons_self, found]
  · intro other isEarlier
    rw [same other (.tail _ isEarlier), untaken other isEarlier]

end Taken

end UrlFilter
