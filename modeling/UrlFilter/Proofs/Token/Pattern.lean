import UrlFilter.Proofs.Pattern
import UrlFilter.Proofs.Token.Lexeme

/-!
# Patterns of delimited text and of numbers

The preferred match of these patterns never takes less than it could: what has to follow a
repeated part cannot stand inside of it. So each match is found in one pass over the text.
-/

namespace UrlFilter

open Text Lexeme

namespace Pattern

variable {inClass : Char → Bool} {text : List Char}

/-- Behind a run stands what is left when the run is dropped. -/
theorem drop_takeWhile (inClass : Char → Bool) (text : List Char) :
    text.drop (text.takeWhile inClass).length = text.dropWhile inClass := by
  have whole : text.takeWhile inClass ++ text.dropWhile inClass = text :=
    List.takeWhile_append_dropWhile
  conv_lhs => arg 2; rw [← whole]
  exact List.drop_left

section Spellings

/-- A certain text is taken where it stands. -/
theorem outcomes_spelling (spelling text : List Char) :
    (spelling.foldr (fun c rest => seq (char c) rest) nothing).outcomes text =
      if spelling.isPrefixOf text then [text.drop spelling.length] else [] := by
  induction spelling generalizing text with
  | nil => rfl
  | cons c others inductionHypothesis =>
    rw [List.foldr_cons, outcomes_seq]
    cases text with
    | nil => rfl
    | cons next rest =>
      rw [char, outcomes_one_cons, List.isPrefixOf, Bool.beq_comm]
      cases same : c == next <;> simp [inductionHypothesis]

/-- A literal pattern takes its spelling. -/
theorem preferred?_literal (spelling : String) (text : List Char) :
    (literal spelling).preferred? text = restBehind text (spelled spelling text) := by
  have outcomes := outcomes_spelling spelling.toList text
  rw [preferred?, literal, outcomes, spelled]
  split <;> rfl

/-- A run of one character or more is taken to its end. -/
theorem preferred?_oneOrMore (inClass : Char → Bool) (text : List Char) :
    (oneOrMore (one inClass)).preferred? text = restBehind text (run inClass text) := by
  cases text with
  | nil => rfl
  | cons c rest =>
    rw [oneOrMore, preferred?_one_seq_cons, preferred?_run, run]
    cases isInside : inClass c with
    | false => simp [isInside]
    | true => simp [isInside, drop_takeWhile]

/-- A character is taken where it stands, and what follows it is matched behind it. -/
theorem preferred?_char_seq (c : Char) (next : Pattern) (rest : List Char) :
    (seq (char c) next).preferred? (c :: rest) = next.preferred? rest := by
  simp [char]

/-- A sequence that starts with a certain character needs a text that does. -/
theorem preferred?_char_seq_of_ne {c : Char} (next : Pattern)
    (absent : ∀ rest, text ≠ c :: rest) : (seq (char c) next).preferred? text = none := by
  cases text with
  | nil => rfl
  | cons other rest =>
    have different : other ≠ c := fun same => absent rest (by rw [same])
    simp [char, different]

/-- A keyword is a dollar sign, an exclamation mark if there is one, and a name. -/
theorem preferred?_keyword (text : List Char) :
    Kind.keyword.pattern.preferred? text = restBehind text (keyword text) := by
  unfold keyword
  split
  · next rest =>
    have notName : isNameChar '!' = false := by decide
    have noRun : run isNameChar ('!' :: rest) = none := by simp [run, notName]
    rw [Kind.pattern, preferred?_char_seq, preferred?_optional_seq, preferred?_char_seq,
      preferred?_oneOrMore, preferred?_oneOrMore, noRun, restBehind_cons_cons]
    simp
  · next rest noMark =>
    rw [Kind.pattern, preferred?_char_seq, preferred?_optional_seq,
      preferred?_char_seq_of_ne _ noMark, preferred?_oneOrMore]
    simp
  · next noDollar => exact preferred?_char_seq_of_ne _ noDollar

end Spellings

section Delimited

/-- One character between delimiters, or a backslash with the character that it escapes. -/
def enclosed (delimiter : Char) : Pattern :=
  .either (.seq (char '\\') (.one (· != '\n'))) (.one fun c => c != delimiter && c != '\\')

/-- What is taken between delimiters has a character. -/
theorem enclosed_consumes (delimiter : Char) : (enclosed delimiter).Consumes :=
  ((one_consumes _).followedBy _).orElse (one_consumes _)

/-- A backslash is taken together with the character behind it, unless the line ends there. -/
theorem outcomes_enclosed_backslash (delimiter c : Char) (rest : List Char) :
    (enclosed delimiter).outcomes ('\\' :: c :: rest) = if c = '\n' then [] else [rest] := by
  by_cases isNewline : c = '\n' <;>
    simp [enclosed, outcomes_either, outcomes_seq, char, isNewline]

/-- Any other character is taken alone, unless it is the delimiter. -/
theorem outcomes_enclosed_plain (delimiter : Char) {c : Char} (plain : c ≠ '\\')
    (rest : List Char) :
    (enclosed delimiter).outcomes (c :: rest) = if c = delimiter then [] else [rest] := by
  have noEscape : (seq (char '\\') (one (· != '\n'))).outcomes (c :: rest) = [] := by
    simp [outcomes_seq, char, plain]
  rw [enclosed, outcomes_either, noEscape]
  by_cases isDelimiter : c = delimiter <;> simp [plain, isDelimiter]

/-- Between delimiters a scan may go on in one way only, and it ends at the delimiter. -/
theorem outcomes_many_enclosed {delimiter : Char} (notBackslash : delimiter ≠ '\\')
    (text : List Char) :
    (seq (many (enclosed delimiter)) (char delimiter)).outcomes text =
      (restBehind text (delimited delimiter text)).toList := by
  have consumes := enclosed_consumes delimiter
  have noEscape : ∀ rest, (char delimiter).outcomes ('\\' :: rest) = [] := by
    intro rest
    simp [char, notBackslash.symm]
  fun_induction delimited delimiter text with
  | case1 =>
    rw [consumes.outcomes_many_seq]
    rfl
  | case2 =>
    rw [consumes.outcomes_many_seq, noEscape]
    simp [enclosed, outcomes_either, outcomes_seq, char]
  | case3 =>
    rw [consumes.outcomes_many_seq, noEscape, outcomes_enclosed_backslash]
    rfl
  | case4 c rest notNewline inductionHypothesis =>
    rw [consumes.outcomes_many_seq, noEscape, outcomes_enclosed_backslash, if_neg notNewline,
      restBehind_cons_cons]
    simpa using inductionHypothesis
  | case5 rest notLast notEscape =>
    rw [consumes.outcomes_many_seq, outcomes_enclosed_plain delimiter notBackslash]
    simp [char]
  | case6 c rest notLast notEscape different inductionHypothesis =>
    rw [consumes.outcomes_many_seq,
      outcomes_enclosed_plain delimiter (ne_backslash notLast notEscape), if_neg different]
    simpa [char, different] using inductionHypothesis

/-- A text between delimiters. -/
theorem outcomes_between {delimiter : Char} (notBackslash : delimiter ≠ '\\')
    (rest : List Char) :
    (between delimiter).outcomes (delimiter :: rest) =
      (restBehind rest (delimited delimiter rest)).toList := by
  have opened : (char delimiter).outcomes (delimiter :: rest) = [rest] := by
    simp [char]
  rw [between, outcomes_seq, opened, List.flatMap_singleton]
  exact outcomes_many_enclosed notBackslash rest

/-- A text that does not start with the delimiter has no delimited part. -/
theorem outcomes_between_of_ne {delimiter : Char} (absent : ∀ rest, text ≠ delimiter :: rest) :
    (between delimiter).outcomes text = [] :=
  List.head?_eq_none_iff.mp (preferred?_char_seq_of_ne _ absent)

/-- A string ends at the first quote that nothing escapes. -/
theorem preferred?_quoted (text : List Char) :
    Kind.quoted.pattern.preferred? text = restBehind text (Lexeme.quoted text) := by
  unfold Lexeme.quoted
  split
  · next rest =>
    rw [Kind.pattern, preferred?, outcomes_between (by decide)]
    simp
  · next noQuote =>
    rw [Kind.pattern, preferred?, outcomes_between_of_ne noQuote]
    rfl

/-- A regular expression ends behind its flags. -/
theorem preferred?_regex (text : List Char) :
    Kind.regex.pattern.preferred? text = restBehind text (Lexeme.regex text) := by
  unfold Lexeme.regex
  split
  · next rest =>
    rw [Kind.pattern, preferred?_seq, outcomes_between (by decide)]
    cases found : delimited '/' rest with
    | none => rfl
    | some body =>
      have behind : ('/' :: rest).drop ('/' :: body ++
          (rest.drop body.length).takeWhile RegexFlag.isLetter).length =
            (rest.drop body.length).dropWhile RegexFlag.isLetter := by
        rw [← drop_takeWhile, List.drop_drop]
        simp
      rw [Option.map_some, restBehind_some, restBehind_some, behind, Option.toList_some,
        List.findSome?_singleton, preferred?_run]
  · next noSlash =>
    rw [Kind.pattern, preferred?_seq, outcomes_between_of_ne noSlash]
    rfl

end Delimited

section Number

/-- The digits before the point of a number. -/
def whole : Pattern :=
  .either (.seq (char '0') (.unlessNext isDecimalDigit))
    (.seq (.one fun c => '1' ≤ c && c ≤ '9') (.many (.one isDecimalDigit)))

/-- The fraction of a number, if there is one, and its end, which no digit follows. -/
def fraction : Pattern :=
  .seq (optional (.seq (char '.') (oneOrMore (.one isDecimalDigit)))) (.unlessNext isDecimalDigit)

/-- A run that no character of its class follows is a run to its end. -/
theorem preferred?_oneOrMore_unlessNext (inClass : Char → Bool) (text : List Char) :
    (seq (oneOrMore (one inClass)) (unlessNext inClass)).preferred? text =
      restBehind text (run inClass text) := by
  have outside : ∀ c rest, inClass c = true →
      (unlessNext inClass).preferred? (c :: rest) = none := by
    intro c rest isInside
    simp [preferred?_unlessNext, isInside]
  rw [oneOrMore, preferred?_seq_assoc]
  cases text with
  | nil => rfl
  | cons c rest =>
    rw [preferred?_one_seq_cons, preferred?_run_seq outside, preferred?_unlessNext,
      head?_dropWhile_any, run]
    cases isInside : inClass c with
    | false => simp [isInside]
    | true => simp [isInside, drop_takeWhile]

/-- A fraction is taken to its end, and nothing is taken where no digit follows a point. -/
theorem preferred?_fraction (text : List Char) :
    fraction.preferred? text =
      if text.head?.any isDecimalDigit then none
      else some (text.drop (fractionPart text).length) := by
  rw [fraction, preferred?_optional_seq, preferred?_unlessNext, preferred?_seq_assoc]
  cases text with
  | nil => rfl
  | cons c rest =>
    by_cases isPoint : c = '.'
    · subst isPoint
      have notDigit : isDecimalDigit '.' = false := by decide
      rw [preferred?_char_seq, preferred?_oneOrMore_unlessNext, run, fractionPart]
      cases digits : (rest.takeWhile isDecimalDigit).isEmpty <;> simp [notDigit]
    · have noPoint : ∀ others, c :: rest ≠ '.' :: others := by
        intro others same
        exact isPoint (List.cons.inj same).1
      have noFraction : fractionPart (c :: rest) = [] := fractionPart.eq_2 _ noPoint
      rw [preferred?_char_seq_of_ne _ noPoint, noFraction]
      rfl

/-- The digits of a number and its fraction are taken to their ends. -/
theorem preferred?_unsigned (text : List Char) :
    (seq whole fraction).preferred? text = restBehind text (unsignedNumber text) := by
  have outside : ∀ c rest, isDecimalDigit c = true → fraction.preferred? (c :: rest) = none := by
    intro c rest isDigit
    simp [preferred?_fraction, isDigit]
  rw [whole, preferred?_either_seq, preferred?_seq_assoc, preferred?_seq_assoc]
  unfold unsignedNumber wholePart
  split
  · rfl
  · next rest =>
    have notLeading : ('1' ≤ '0' && '0' ≤ '9') = false := by decide
    rw [preferred?_char_seq, preferred?_unlessNext_seq, preferred?_one_seq_cons, notLeading,
      preferred?_fraction]
    cases isDigit : rest.head?.any isDecimalDigit <;> simp
  · next c rest notZero =>
    have noZero : ∀ others, c :: rest ≠ '0' :: others := by
      intro others same
      exact notZero (List.cons.inj same).1
    rw [preferred?_char_seq_of_ne _ noZero, preferred?_one_seq_cons, preferred?_run_seq outside,
      preferred?_fraction, head?_dropWhile_any]
    by_cases leading : '1' ≤ c ∧ c ≤ '9'
    · simp [leading, drop_takeWhile, ← List.drop_drop]
    · simp [leading]

/-- A number is taken to its end. -/
theorem preferred?_number (text : List Char) :
    Kind.number.pattern.preferred? text = restBehind text (Lexeme.number text) := by
  have split : Kind.number.pattern = seq (optional (char '-')) (seq whole fraction) := rfl
  rw [split, preferred?_optional_seq]
  unfold Lexeme.number
  split
  · next rest =>
    have noDigits : unsignedNumber ('-' :: rest) = none := by
      simp [unsignedNumber, wholePart]
    rw [preferred?_char_seq, preferred?_unsigned, preferred?_unsigned, noDigits]
    simp
  · next noSign =>
    rw [preferred?_char_seq_of_ne _ noSign, preferred?_unsigned]
    rfl

end Number

end Pattern

end UrlFilter
