import UrlFilter.Expression.Writable

/-!
# The form of lexemes

Each kind of lexeme takes a certain form of text, and what follows the lexeme could not be
taken too.
-/

namespace UrlFilter.Lexeme

open UrlFilter.Text

/-- What is taken from a list ends where an item outside the class follows. -/
theorem takeWhile_append_stop {α : Type} {inClass : α → Bool} {taken rest : List α}
    (all : ∀ c ∈ taken, inClass c = true) (stops : rest.head?.any inClass = false) :
    (taken ++ rest).takeWhile inClass = taken := by
  rw [List.takeWhile_append_of_pos all]
  cases rest with
  | nil => simp
  | cons c others =>
    have outside : inClass c = false := by simpa using stops
    simp [outside]

/-- What is left of a list starts with the item outside the class. -/
theorem dropWhile_append_stop {α : Type} {inClass : α → Bool} {taken rest : List α}
    (all : ∀ c ∈ taken, inClass c = true) (stops : rest.head?.any inClass = false) :
    (taken ++ rest).dropWhile inClass = rest := by
  have whole : (taken ++ rest).takeWhile inClass ++ (taken ++ rest).dropWhile inClass =
      taken ++ rest := List.takeWhile_append_dropWhile
  rw [takeWhile_append_stop all stops] at whole
  exact List.append_cancel_left whole

section Runs

variable {inClass : Char → Bool} {taken text : List Char}

/-- No character of the class follows a run. -/
theorem head?_dropWhile_any : (text.dropWhile inClass).head?.any inClass = false := by
  have outside := List.head?_dropWhile_not inClass text
  cases next : (text.dropWhile inClass).head? with
  | none => rfl
  | some c => simpa [next] using outside

/-- What is taken of a class is in the class. -/
theorem mem_takeWhile_imp {c : Char} (isTaken : c ∈ text.takeWhile inClass) :
    inClass c = true :=
  List.all_eq_true.mp List.all_takeWhile c isTaken

/-- A run is the longest one of its class, and not empty. -/
theorem run_eq_some_iff :
    run inClass text = some taken ↔
      taken ≠ [] ∧ (∀ c ∈ taken, inClass c = true) ∧
        ∃ rest, text = taken ++ rest ∧ rest.head?.any inClass = false := by
  simp only [run]
  constructor
  · intro found
    split at found
    · cases found
    · next some? =>
      cases found
      exact ⟨by simpa using some?, fun c => mem_takeWhile_imp, text.dropWhile inClass,
        List.takeWhile_append_dropWhile.symm, head?_dropWhile_any⟩
  · rintro ⟨nonempty, all, rest, rfl, stops⟩
    simp [takeWhile_append_stop all stops, nonempty]

/-- Where characters of the class stand, a run is found. -/
theorem exists_run (nonempty : taken ≠ []) (all : ∀ c ∈ taken, inClass c = true)
    (rest : List Char) : ∃ longer, run inClass (taken ++ rest) = some longer := by
  obtain ⟨c, others, rfl⟩ := List.exists_cons_of_ne_nil nonempty
  simp [run, all c List.mem_cons_self]

end Runs

/-- A spelling is found where the text starts with it. -/
theorem spelled_eq_some_iff {spelling : String} {text lexeme : List Char} :
    spelled spelling text = some lexeme ↔
      lexeme = spelling.toList ∧ ∃ rest, text = lexeme ++ rest := by
  unfold spelled
  constructor
  · intro found
    split at found
    · next starts =>
      cases found
      obtain ⟨rest, same⟩ := List.isPrefixOf_iff_prefix.mp starts
      exact ⟨rfl, rest, same.symm⟩
    · cases found
  · rintro ⟨rfl, rest, rfl⟩
    simp

section Delimited

variable {delimiter : Char} {text body inner : List Char}

/-- A character other than the backslash escapes nothing. -/
theorem isEscaped_cons {c : Char} (plain : c ≠ '\\') :
    isEscaped delimiter (c :: inner) = (c != delimiter && isEscaped delimiter inner) := by
  cases inner <;> simp [isEscaped, plain]

/-- A character that is no backslash is taken alone and may be the delimiter. -/
theorem delimited_cons {c : Char} (plain : c ≠ '\\') :
    delimited delimiter (c :: text) =
      if c = delimiter then some [c] else (delimited delimiter text).map (c :: ·) := by
  cases text <;> simp [delimited, plain]

/-- A backslash is followed by what it escapes, unless nothing follows. -/
theorem ne_backslash {c : Char} {rest : List Char} (notLast : c = '\\' → rest = [] → False)
    (notEscape : ∀ next others, c = '\\' → rest = next :: others → False) : c ≠ '\\' := by
  intro same
  cases rest with
  | nil => exact notLast same rfl
  | cons next others => exact notEscape next others same rfl

/-- Escaped text is taken up to the delimiter behind it. -/
theorem delimited_of_isEscaped (notBackslash : delimiter ≠ '\\')
    (escaped : isEscaped delimiter inner = true) (rest : List Char) :
    delimited delimiter (inner ++ delimiter :: rest) = some (inner ++ [delimiter]) := by
  fun_induction isEscaped delimiter inner with
  | case1 =>
    rw [List.nil_append, delimited_cons notBackslash, if_pos rfl]
    rfl
  | case2 => simp at escaped
  | case3 c others inductionHypothesis =>
    simp only [Bool.and_eq_true, bne_iff_ne] at escaped
    simp [delimited, escaped.1, inductionHypothesis escaped.2]
  | case4 c others notLast notEscape inductionHypothesis =>
    have plain := ne_backslash notLast notEscape
    simp only [Bool.and_eq_true, bne_iff_ne] at escaped
    rw [List.cons_append, delimited_cons plain, if_neg escaped.1, inductionHypothesis escaped.2]
    rfl

/-- What is taken between delimiters is escaped. -/
theorem isEscaped_of_delimited (found : delimited delimiter text = some body) :
    ∃ inner rest, body = inner ++ [delimiter] ∧ text = inner ++ delimiter :: rest ∧
      isEscaped delimiter inner = true := by
  fun_induction delimited delimiter text generalizing body with
  | case1 => cases found
  | case2 => cases found
  | case3 => cases found
  | case4 c rest notNewline inductionHypothesis =>
    obtain ⟨others, othersFound, rfl⟩ := Option.map_eq_some_iff.mp found
    obtain ⟨inner, rest, rfl, rfl, escaped⟩ := inductionHypothesis othersFound
    exact ⟨'\\' :: c :: inner, rest, rfl, rfl, by simp [isEscaped, notNewline, escaped]⟩
  | case5 rest notLast notEscape =>
    cases found
    exact ⟨[], rest, rfl, rfl, rfl⟩
  | case6 c rest notLast notEscape different inductionHypothesis =>
    obtain ⟨others, othersFound, rfl⟩ := Option.map_eq_some_iff.mp found
    obtain ⟨inner, rest, rfl, rfl, escaped⟩ := inductionHypothesis othersFound
    have plain := ne_backslash notLast notEscape
    exact ⟨c :: inner, rest, rfl, rfl, by simp [isEscaped_cons plain, different, escaped]⟩

end Delimited

/-- A regular expression takes escaped text between slashes and all the flags behind it. -/
theorem regex_eq_some_iff {text lexeme : List Char} :
    regex text = some lexeme ↔
      ∃ pattern flags rest, lexeme = '/' :: (pattern ++ '/' :: flags) ∧ text = lexeme ++ rest ∧
        isEscaped '/' pattern = true ∧ (∀ c ∈ flags, RegexFlag.isLetter c = true) ∧
        rest.head?.any RegexFlag.isLetter = false := by
  constructor
  · intro found
    unfold regex at found
    split at found
    · next behind =>
      obtain ⟨body, bodyFound, rfl⟩ := Option.map_eq_some_iff.mp found
      obtain ⟨pattern, rest, rfl, rfl, escaped⟩ := isEscaped_of_delimited bodyFound
      have dropped : (pattern ++ '/' :: rest).drop (pattern ++ ['/']).length = rest := by
        simp
      rw [dropped]
      refine ⟨pattern, rest.takeWhile RegexFlag.isLetter, rest.dropWhile RegexFlag.isLetter,
        by simp, by simp, escaped, fun c => mem_takeWhile_imp, head?_dropWhile_any⟩
    · cases found
  · rintro ⟨pattern, flags, rest, rfl, rfl, escaped, letters, stops⟩
    have body := delimited_of_isEscaped (by decide) escaped (flags ++ rest)
    simp only [regex, List.cons_append, List.append_assoc, body, Option.map_some]
    have dropped : (pattern ++ '/' :: (flags ++ rest)).drop (pattern ++ ['/']).length =
        flags ++ rest := by
      simp
    rw [dropped, takeWhile_append_stop letters stops]
    simp

/-- A string takes escaped text between single quotes. -/
theorem quoted_eq_some_iff {text lexeme : List Char} :
    quoted text = some lexeme ↔
      ∃ content rest, lexeme = '\'' :: (content ++ ['\'']) ∧ text = lexeme ++ rest ∧
        isEscaped '\'' content = true := by
  constructor
  · intro found
    unfold quoted at found
    split at found
    · next behind =>
      obtain ⟨body, bodyFound, rfl⟩ := Option.map_eq_some_iff.mp found
      obtain ⟨content, rest, rfl, rfl, escaped⟩ := isEscaped_of_delimited bodyFound
      exact ⟨content, rest, rfl, by simp, escaped⟩
    · cases found
  · rintro ⟨content, rest, rfl, rfl, escaped⟩
    have body := delimited_of_isEscaped (by decide) escaped rest
    simp [quoted, body]

/-- The digits before the point: a zero alone, or digits that do not start with zero. -/
def IsWhole (whole : List Char) : Prop :=
  whole = ['0'] ∨ ∃ c digits, whole = c :: digits ∧ ('1' ≤ c ∧ c ≤ '9') ∧
    ∀ digit ∈ digits, isDecimalDigit digit = true

/-- The point with the digits behind it, or nothing. -/
def IsFraction (fraction : List Char) : Prop :=
  fraction = [] ∨ ∃ digits, fraction = '.' :: digits ∧ digits ≠ [] ∧
    ∀ digit ∈ digits, isDecimalDigit digit = true

/-- A sign or nothing. -/
def IsSign (sign : List Char) : Prop :=
  sign = [] ∨ sign = ['-']

/-- A whole part has a digit. -/
theorem IsWhole.nonempty {whole : List Char} (isWhole : IsWhole whole) : whole ≠ [] := by
  rcases isWhole with rfl | ⟨_, _, rfl, _⟩ <;> exact List.cons_ne_nil _ _

/-- The first character before the point is an ASCII digit. -/
theorem IsWhole.head {whole : List Char} (isWhole : IsWhole whole) :
    ∃ c digits, whole = c :: digits ∧ c.isDigit = true := by
  rcases isWhole with rfl | ⟨c, digits, rfl, range, _⟩
  · exact ⟨'0', [], rfl, rfl⟩
  · have lower : (48 : UInt32) ≤ c.val := UInt32.le_trans (by decide) range.1
    have upper : c.val ≤ 57 := range.2
    exact ⟨c, digits, rfl, by simp [Char.isDigit, lower, upper]⟩

/-- The whole part of a number is the longest one. -/
theorem wholePart_eq_some_iff {text whole : List Char} :
    wholePart text = some whole ↔
      ∃ rest, text = whole ++ rest ∧ IsWhole whole ∧ rest.head?.any isDecimalDigit = false := by
  constructor
  · intro found
    unfold wholePart at found
    split at found
    · cases found
    · next rest =>
      split at found
      · cases found
      · next stops =>
        cases found
        exact ⟨rest, rfl, .inl rfl, by simpa using stops⟩
    · next c rest _ =>
      split at found
      · next isDigit =>
        cases found
        exact ⟨rest.dropWhile isDecimalDigit, by simp,
          .inr ⟨c, _, rfl, isDigit, fun digit => mem_takeWhile_imp⟩, head?_dropWhile_any⟩
      · cases found
  · rintro ⟨rest, rfl, isZero | ⟨c, digits, rfl, isDigit, all⟩, stops⟩
    · simp [isZero, wholePart, stops]
    · have notZero : c ≠ '0' := by
        rintro rfl
        exact absurd isDigit.1 (by decide)
      rw [List.cons_append, wholePart.eq_3 _ _ notZero, if_pos isDigit,
        takeWhile_append_stop all stops]

/-- Nothing of what follows belongs to the fraction: no digit, and without a fraction no point
that a digit follows. -/
def FractionStops (fraction rest : List Char) : Prop :=
  rest.head?.any isDecimalDigit = false ∧
    (fraction = [] → ∀ others, rest = '.' :: others → others.head?.any isDecimalDigit = false)

/-- A fraction and what follows it are told apart. -/
theorem fractionPart_append {fraction rest : List Char} (isFraction : IsFraction fraction)
    (stops : FractionStops fraction rest) : fractionPart (fraction ++ rest) = fraction := by
  rcases isFraction with rfl | ⟨digits, rfl, nonempty, all⟩
  · rw [List.nil_append]
    unfold fractionPart
    split
    · next others =>
      have noDigit := stops.2 rfl others rfl
      cases others with
      | nil => rfl
      | cons c others => simp_all
    · rfl
  · simp [fractionPart, takeWhile_append_stop all stops.1, nonempty]

/-- Behind the digits before the point stands a fraction, perhaps an empty one. -/
theorem exists_fractionPart {text : List Char} (noDigit : text.head?.any isDecimalDigit = false) :
    ∃ rest, text = fractionPart text ++ rest ∧ IsFraction (fractionPart text) ∧
      FractionStops (fractionPart text) rest := by
  unfold fractionPart
  split
  · next others =>
    cases isDigit : (others.takeWhile isDecimalDigit).isEmpty with
    | true =>
      simp only [isDigit, if_true]
      refine ⟨'.' :: others, rfl, .inl rfl, noDigit, ?_⟩
      rintro _ _ same
      cases same
      cases others with
      | nil => rfl
      | cons c others => cases digit : isDecimalDigit c <;> simp_all
    | false =>
      simp only [isDigit, Bool.false_eq_true, if_false]
      refine ⟨others.dropWhile isDecimalDigit, by simp, .inr ⟨_, rfl, ?_, ?_⟩, ?_, by simp⟩
      · simpa using isDigit
      · exact fun digit => mem_takeWhile_imp
      · exact head?_dropWhile_any
  · next noPoint =>
    exact ⟨text, rfl, .inl rfl, noDigit, fun _ others same => absurd same (noPoint others)⟩

/-- A number without a sign takes its digits, and the fraction behind them. -/
theorem unsignedNumber_eq_some_iff {text lexeme : List Char} :
    unsignedNumber text = some lexeme ↔
      ∃ whole fraction rest, lexeme = whole ++ fraction ∧ text = lexeme ++ rest ∧
        IsWhole whole ∧ IsFraction fraction ∧ FractionStops fraction rest := by
  constructor
  · intro found
    obtain ⟨whole, wholeFound, rfl⟩ := Option.map_eq_some_iff.mp found
    obtain ⟨behind, rfl, isWhole, noDigit⟩ := wholePart_eq_some_iff.mp wholeFound
    rw [List.drop_left]
    obtain ⟨rest, same, isFraction, stops⟩ := exists_fractionPart noDigit
    exact ⟨whole, fractionPart behind, rest, rfl, by rw [List.append_assoc, ← same], isWhole,
      isFraction, stops⟩
  · rintro ⟨whole, fraction, rest, rfl, rfl, isWhole, isFraction, stops⟩
    have noDigit : (fraction ++ rest).head?.any isDecimalDigit = false := by
      rcases isFraction with rfl | ⟨digits, rfl, _⟩
      · exact stops.1
      · rfl
    have wholeFound : wholePart (whole ++ fraction ++ rest) = some whole :=
      wholePart_eq_some_iff.mpr ⟨fraction ++ rest, List.append_assoc .., isWhole, noDigit⟩
    rw [unsignedNumber, wholeFound, Option.map_some, List.append_assoc, List.drop_left,
      fractionPart_append isFraction stops]

/-- A number takes a sign, its digits and the fraction behind them. -/
theorem number_eq_some_iff {text lexeme : List Char} :
    number text = some lexeme ↔
      ∃ sign whole fraction rest, lexeme = sign ++ (whole ++ fraction) ∧ text = lexeme ++ rest ∧
        IsSign sign ∧ IsWhole whole ∧ IsFraction fraction ∧ FractionStops fraction rest := by
  constructor
  · intro found
    unfold number at found
    split at found
    · obtain ⟨unsigned, unsignedFound, rfl⟩ := Option.map_eq_some_iff.mp found
      obtain ⟨whole, fraction, rest, rfl, rfl, form⟩ :=
        unsignedNumber_eq_some_iff.mp unsignedFound
      exact ⟨['-'], whole, fraction, rest, rfl, rfl, .inr rfl, form⟩
    · obtain ⟨whole, fraction, rest, rfl, rfl, form⟩ := unsignedNumber_eq_some_iff.mp found
      exact ⟨[], whole, fraction, rest, rfl, rfl, .inl rfl, form⟩
  · rintro ⟨sign, whole, fraction, rest, rfl, rfl, isSign, form⟩
    have unsignedFound : unsignedNumber (whole ++ fraction ++ rest) = some (whole ++ fraction) :=
      unsignedNumber_eq_some_iff.mpr ⟨whole, fraction, rest, rfl, rfl, form⟩
    rcases isSign with rfl | rfl
    · obtain ⟨isWhole, _⟩ := form
      rw [List.nil_append]
      unfold number
      split
      · next behind same =>
        rcases isWhole with rfl | ⟨c, digits, rfl, isDigit, _⟩
        · simp at same
        · simp only [List.cons_append, List.cons.injEq] at same
          rw [same.1] at isDigit
          exact absurd isDigit.1 (by decide)
      · exact unsignedFound
    · simp [number, ← List.append_assoc, unsignedFound]

/-- A keyword takes a dollar sign, perhaps an exclamation mark, and a name. -/
theorem keyword_eq_some_iff {text lexeme : List Char} :
    keyword text = some lexeme ↔
      ∃ mark name rest, lexeme = '$' :: (mark ++ name) ∧ text = lexeme ++ rest ∧
        (mark = [] ∨ mark = ['!']) ∧ name ≠ [] ∧ (∀ c ∈ name, isNameChar c = true) ∧
        rest.head?.any isNameChar = false := by
  constructor
  · intro found
    unfold keyword at found
    split at found
    · obtain ⟨name, nameFound, rfl⟩ := Option.map_eq_some_iff.mp found
      obtain ⟨nonempty, all, rest, rfl, stops⟩ := run_eq_some_iff.mp nameFound
      exact ⟨['!'], name, rest, rfl, rfl, .inr rfl, nonempty, all, stops⟩
    · obtain ⟨name, nameFound, rfl⟩ := Option.map_eq_some_iff.mp found
      obtain ⟨nonempty, all, rest, rfl, stops⟩ := run_eq_some_iff.mp nameFound
      exact ⟨[], name, rest, rfl, rfl, .inl rfl, nonempty, all, stops⟩
    · cases found
  · rintro ⟨mark, name, rest, rfl, rfl, isMark, nonempty, all, stops⟩
    have nameFound : run isNameChar (name ++ rest) = some name :=
      run_eq_some_iff.mpr ⟨nonempty, all, rest, rfl, stops⟩
    rcases isMark with rfl | rfl
    · obtain ⟨c, others, rfl⟩ := List.exists_cons_of_ne_nil nonempty
      have notMark : c ≠ '!' := by
        rintro rfl
        exact absurd (all '!' List.mem_cons_self) (by decide)
      simp only [List.nil_append, List.cons_append] at nameFound ⊢
      simp [keyword, notMark, nameFound]
    · simp [keyword, nameFound]

/-- A phrase takes all that does not end it, if a character behind the first one joins
words. -/
theorem phrase_eq_some_iff {text lexeme : List Char} :
    phrase text = some lexeme ↔
      lexeme = text.takeWhile (fun c => !endsPhrase c) ∧
        ∃ first others, lexeme = first :: others ∧ isBlank first = false ∧
          others.any joinsWords = true := by
  unfold phrase
  constructor
  · intro found
    simp only at found
    split at found
    · next first others bare =>
      split at found
      · next joins =>
        cases found
        simp only [Bool.and_eq_true, Bool.not_eq_true'] at joins
        exact ⟨rfl, first, others, bare, joins⟩
      · cases found
    · cases found
  · rintro ⟨same, first, others, rfl, notBlank, joins⟩
    simp [← same, notBlank, joins]

end UrlFilter.Lexeme
