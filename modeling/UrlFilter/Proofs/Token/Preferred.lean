import UrlFilter.Proofs.Token.Pattern
import UrlFilter.Proofs.Token.Regex

/-!
# Lexemes as preferred matches

The parts of a phrase overlap: a plus sign may belong to bare text, may join words or may stand
behind them. However they are told apart, the whole run of phrase characters is taken, and a plus
sign that bare text has taken is given back where no other character joins words. So the lexeme of
every kind, which is read without going back, is the preferred match of the pattern of the kind.
-/

namespace UrlFilter

open Text Lexeme

namespace Pattern

variable {inClass : Char → Bool}

/-- A character of a phrase that may stand at its start. -/
def bare : Pattern :=
  .one fun c => !endsPhrase c && !isBlank c

/-- A character that joins words. -/
def joiner : Pattern :=
  .either (.one isBlank) (char '+')

/-- A character of a phrase. -/
def inside : Pattern :=
  .one fun c => !endsPhrase c

/-- The start of a stretch of a phrase, up to the characters that join words. -/
def opening : Pattern :=
  .seq (oneOrMore bare) (oneOrMore joiner)

/-- A stretch of a phrase. -/
def stretch : Pattern :=
  .seq (oneOrMore bare) (.seq (oneOrMore joiner) (.many inside))

/-- Behind everything that the pattern takes, a run of the class ends where it would have ended
in front of it. -/
def Within (inClass : Char → Bool) (pattern : Pattern) : Prop :=
  ∀ text, ∀ rest ∈ pattern.outcomes text, rest.dropWhile inClass = text.dropWhile inClass

section Within

variable {first second inner : Pattern}

/-- A character of a smaller class is within the class. -/
theorem one_within {smaller : Char → Bool} (isInside : ∀ c, smaller c = true → inClass c = true) :
    (one smaller).Within inClass := by
  intro text rest isOutcome
  cases text with
  | nil => simp at isOutcome
  | cons c others =>
    rw [outcomes_one_cons] at isOutcome
    split at isOutcome
    · next isSmaller =>
      rw [List.mem_singleton.mp isOutcome, List.dropWhile_cons_of_pos (isInside c isSmaller)]
    · cases isOutcome

/-- A sequence is within the class if its parts are. -/
theorem Within.followedBy (firstWithin : first.Within inClass)
    (secondWithin : second.Within inClass) : (seq first second).Within inClass := by
  intro text rest isOutcome
  rw [outcomes_seq, List.mem_flatMap] at isOutcome
  obtain ⟨middle, isMiddle, isRest⟩ := isOutcome
  rw [secondWithin middle rest isRest, firstWithin text middle isMiddle]

/-- An alternative is within the class if its parts are. -/
theorem Within.orElse (firstWithin : first.Within inClass)
    (secondWithin : second.Within inClass) : (either first second).Within inClass := by
  intro text
  rw [outcomes_either, List.forall_mem_append]
  exact ⟨firstWithin text, secondWithin text⟩

/-- A repetition is within the class if what it repeats is. -/
theorem Within.repeated (within : inner.Within inClass) : (many inner).Within inClass := by
  intro text
  refine of_mem_repeatedly (fun text rest => rest.dropWhile inClass = text.dropWhile inClass)
    (fun _ => rfl) ?_ within text.length
  intro text middle rest firstSame secondSame
  rw [secondSame, firstSame]

/-- Behind a part of a run, the rest of the run is taken. -/
theorem Within.preferred?_seq_run (within : first.Within inClass) (text : List Char) :
    (seq first (many (one inClass))).preferred? text =
      (first.preferred? text).map fun _ => text.dropWhile inClass := by
  have inRun := within text
  rw [preferred?_seq, preferred?]
  cases outcomes : first.outcomes text with
  | nil => rfl
  | cons rest others =>
    rw [outcomes] at inRun
    simp [preferred?_run, inRun]

end Within

/-- A character that ends phrases joins no words. -/
theorem not_joinsWords_of_ends {c : Char} (ends : endsPhrase c = true) : joinsWords c = false := by
  have notPlus : c ≠ '+' := by
    rintro rfl
    exact absurd ends (by decide)
  simp [joinsWords, isBlank_of_endsPhrase ends, notPlus]

/-- Characters that join words are taken where one stands. -/
theorem isSome_preferred?_joiners (text : List Char) :
    ((oneOrMore joiner).preferred? text).isSome = text.head?.any joinsWords := by
  cases text with
  | nil => rfl
  | cons c rest =>
    have goesOn := isSome_preferred?_many joiner rest
    have outcomes : joiner.outcomes (c :: rest) =
        (if isBlank c then [rest] else []) ++ if c == '+' then [rest] else [] := rfl
    rw [oneOrMore, preferred?_seq, outcomes]
    cases blank : isBlank c <;> cases plus : c == '+' <;> simp [joinsWords, blank, plus, goesOn]

/-- What follows a character of a phrase goes on behind it. -/
theorem preferred?_bare_seq (next : Pattern) (c : Char) (rest : List Char) :
    (seq bare next).preferred? (c :: rest) =
      if !endsPhrase c && !isBlank c then next.preferred? rest else none :=
  preferred?_one_seq_cons next c rest

/-- Characters of a phrase are taken as far as what follows them allows. -/
theorem preferred?_bares_seq (next : Pattern) (c : Char) (rest : List Char) :
    (seq (many bare) next).preferred? (c :: rest) =
      (if !endsPhrase c && !isBlank c then (seq (many bare) next).preferred? rest else none).or
        (next.preferred? (c :: rest)) :=
  preferred?_run_seq_cons _ next c rest

/-- From the middle of a word a joining character is reached within the phrase, if there is one. -/
theorem isSome_preferred?_joined (text : List Char) :
    ((seq (many bare) (oneOrMore joiner)).preferred? text).isSome =
      (text.takeWhile fun c => !endsPhrase c).any joinsWords := by
  induction text with
  | nil => rfl
  | cons c rest inductionHypothesis =>
    have joins := isSome_preferred?_joiners (c :: rest)
    rw [preferred?_bares_seq, Option.isSome_or, joins]
    cases ends : endsPhrase c with
    | true => simp [ends, not_joinsWords_of_ends ends]
    | false =>
      cases blank : isBlank c with
      | true => simp [ends, blank, joinsWords]
      | false => simp [ends, inductionHypothesis, Bool.or_comm]

/-- A stretch opens with bare text that a joining character follows within the phrase. -/
theorem isSome_preferred?_opening (c : Char) (rest : List Char) :
    (opening.preferred? (c :: rest)).isSome =
      (!endsPhrase c && !isBlank c &&
        (rest.takeWhile fun c => !endsPhrase c).any joinsWords) := by
  have joined := isSome_preferred?_joined rest
  rw [opening, oneOrMore, preferred?_seq_assoc, preferred?_bare_seq]
  cases (!endsPhrase c && !isBlank c) <;> simp [joined]

/-- What opens a phrase has no character that ends one. -/
theorem opening_within : opening.Within fun c => !endsPhrase c := by
  have bareWithin : bare.Within fun c => !endsPhrase c := by
    refine one_within ?_
    intro c isBare
    rw [Bool.and_eq_true] at isBare
    exact isBare.1
  have joinerInside : ∀ c, joinsWords c = true → (!endsPhrase c) = true := by
    intro c joins
    cases ends : endsPhrase c with
    | false => rfl
    | true =>
      rw [not_joinsWords_of_ends ends] at joins
      cases joins
  have joinerWithin : joiner.Within fun c => !endsPhrase c :=
    (one_within fun c blank => joinerInside c (by simp [joinsWords, blank])).orElse
      (one_within fun c plus => joinerInside c (by rw [joinsWords, plus, Bool.or_true]))
  exact (bareWithin.followedBy bareWithin.repeated).followedBy
    (joinerWithin.followedBy joinerWithin.repeated)

/-- A stretch reaches to the end of the phrase. -/
theorem preferred?_stretch (text : List Char) :
    stretch.preferred? text =
      (opening.preferred? text).map fun _ => text.dropWhile fun c => !endsPhrase c := by
  rw [stretch, ← preferred?_seq_assoc]
  exact opening_within.preferred?_seq_run text

/-- Where a phrase ends no other stretch starts. -/
theorem outcomes_stretch_behind (text : List Char) :
    stretch.outcomes (text.dropWhile fun c => !endsPhrase c) = [] := by
  have noStretch := preferred?_stretch (text.dropWhile fun c => !endsPhrase c)
  have notOpened : opening.preferred? (text.dropWhile fun c => !endsPhrase c) = none := by
    have ends : (text.dropWhile fun c => !endsPhrase c).head?.any (fun c => !endsPhrase c) =
        false := head?_dropWhile_any
    cases behind : text.dropWhile fun c => !endsPhrase c with
    | nil => rfl
    | cons c rest =>
      rw [behind] at ends
      have isNone := isSome_preferred?_opening c rest
      simp only [List.head?_cons, Option.any_some] at ends
      rw [ends] at isNone
      simpa using isNone
  rw [notOpened] at noStretch
  exact List.head?_eq_none_iff.mp noStretch

/-- A phrase is one stretch. -/
theorem preferred?_phrase_eq (text : List Char) :
    phrase.preferred? text = stretch.preferred? text := by
  have isRepeated : phrase = seq stretch (many stretch) := rfl
  have reached := preferred?_stretch text
  rw [isRepeated, preferred?_seq]
  rw [preferred?] at reached ⊢
  cases outcomes : stretch.outcomes text with
  | nil => rfl
  | cons rest others =>
    rw [outcomes, List.head?_cons] at reached
    cases opened : opening.preferred? text with
    | none =>
      rw [opened] at reached
      cases reached
    | some _ =>
      rw [opened, Option.map_some, Option.some.injEq] at reached
      have left : (many stretch).preferred? rest = some rest := by
        rw [preferred?, outcomes_many_of_nil (reached ▸ outcomes_stretch_behind text)]
        rfl
      rw [List.findSome?_cons, left, List.head?_cons]

/-- A phrase is the run of its characters, if it is opened. -/
theorem preferred?_phrase (text : List Char) :
    Kind.phrase.pattern.preferred? text = restBehind text (Lexeme.phrase text) := by
  have same : Kind.phrase.pattern = phrase := rfl
  rw [same, preferred?_phrase_eq, preferred?_stretch]
  cases text with
  | nil => rfl
  | cons c rest =>
    have opened := isSome_preferred?_opening c rest
    rw [Lexeme.phrase, List.takeWhile_cons]
    cases ends : endsPhrase c with
    | true =>
      have none : opening.preferred? (c :: rest) = none := by simpa [ends] using opened
      simp [none, ends]
    | false =>
      have joined : (opening.preferred? (c :: rest)).isSome =
          (!isBlank c && (rest.takeWhile fun c => !endsPhrase c).any joinsWords) := by
        simpa [ends] using opened
      have behind := drop_takeWhile (fun c => !endsPhrase c) rest
      cases opened : opening.preferred? (c :: rest) with
      | none =>
        rw [opened] at joined
        simp [← joined, restBehind]
      | some _ =>
        rw [opened] at joined
        simp [← joined, ends, behind, restBehind]

end Pattern

namespace Kind

open Pattern

/-- What the pattern of a kind leaves is what stands behind the lexeme of the kind. -/
theorem preferred?_pattern (kind : Kind) (text : List Char) :
    kind.pattern.preferred? text = restBehind text (kind.lexeme? text) := by
  cases kind with
  | regex => exact preferred?_regex text
  | quoted => exact preferred?_quoted text
  | phrase => exact preferred?_phrase text
  | number => exact preferred?_number text
  | boolean =>
    rw [pattern, preferred?_either, preferred?_literal, preferred?_literal]
    cases isTrue : spelled "true" text <;> simp [lexeme?, isTrue]
  | keyword => exact preferred?_keyword text
  | word | blank => exact preferred?_oneOrMore _ text
  | null | notEqual | atLeast | atMost | matching | equal | greater | less | or | and | openGroup
  | closeGroup | openList | closeList | comma | bang => exact preferred?_literal _ text

/-- The lexeme of a kind is the preferred match of its pattern. -/
theorem match?_pattern (kind : Kind) (text : List Char) :
    kind.pattern.match? text = kind.lexeme? text := by
  refine match?_eq ?_ (kind.preferred?_pattern text)
  intro lexeme found
  obtain ⟨_, inFront⟩ := Kind.lexeme?_prefix found
  exact inFront

/-- Bare text takes both plus signs and gives one of them back. -/
example : Kind.phrase.pattern.match? "a++)".toList = some "a++".toList := by
  rfl

end Kind

/-- The lexeme that is taken is the preferred match of the first pattern that has one. -/
theorem firstLexeme?_eq_findSome?_match? (text : List Char) :
    firstLexeme? text =
      Kind.byPriority.findSome? fun kind =>
        (kind.pattern.match? text).map fun lexeme => (kind, lexeme) := by
  simp only [firstLexeme?, Kind.match?_pattern]

/-- A regular expression takes the pattern up to the first slash that nothing escapes, and all
letters of flags behind it. -/
theorem Lexeme.regex_eq_some_iff_takeWhile {text lexeme : List Char} :
    Lexeme.regex text = some lexeme ↔
      ∃ pattern rest, text = '/' :: (pattern ++ '/' :: rest) ∧ Escaped '/' pattern ∧
        lexeme = '/' :: (pattern ++ '/' :: rest.takeWhile RegexFlag.isLetter) := by
  rw [regex_eq_some_iff]
  constructor
  · rintro ⟨pattern, flags, rest, rfl, rfl, escaped, letters, stops⟩
    refine ⟨pattern, flags ++ rest, by simp, isEscaped_iff.mp escaped, ?_⟩
    rw [takeWhile_append_stop letters stops]
  · rintro ⟨pattern, rest, rfl, escaped, rfl⟩
    exact ⟨pattern, _, rest.dropWhile RegexFlag.isLetter, rfl, by simp, isEscaped_iff.mpr escaped,
      fun c => mem_takeWhile_imp, head?_dropWhile_any⟩

/-- What the patterns of tokens match when all ways to match are tried in order. The lexeme of
every kind is the preferred match of its pattern. A phrase is matched where neither a blank nor an
end of phrases stands and a blank or a plus sign stands further on in the run of its characters,
and the whole run is taken. A string and a regular expression are matched up to the first
delimiter that nothing escapes. A number is matched with its sign, its digits and its fraction, and
none of them could be longer. A text is read by the preferred match of the first pattern that has
one. -/
theorem Kind.pattern_matches (text : List Char) :
    (∀ kind : Kind, kind.pattern.match? text = kind.lexeme? text) ∧
    (firstLexeme? text = Kind.byPriority.findSome? fun kind =>
      (kind.pattern.match? text).map fun lexeme => (kind, lexeme)) ∧
    ∀ lexeme : List Char,
      (Kind.phrase.pattern.match? text = some lexeme ↔
        lexeme = text.takeWhile (fun c => !endsPhrase c) ∧
          ∃ first others, lexeme = first :: others ∧ isBlank first = false ∧
            ∃ c ∈ others, isBlank c = true ∨ c = '+') ∧
      (Kind.quoted.pattern.match? text = some lexeme ↔
        ∃ content rest, text = '\'' :: (content ++ '\'' :: rest) ∧ Escaped '\'' content ∧
          lexeme = '\'' :: (content ++ ['\''])) ∧
      (Kind.regex.pattern.match? text = some lexeme ↔
        ∃ pattern rest, text = '/' :: (pattern ++ '/' :: rest) ∧ Escaped '/' pattern ∧
          lexeme = '/' :: (pattern ++ '/' :: rest.takeWhile RegexFlag.isLetter)) ∧
      (Kind.number.pattern.match? text = some lexeme ↔
        ∃ sign whole fraction rest, lexeme = sign ++ (whole ++ fraction) ∧
          text = lexeme ++ rest ∧ IsSign sign ∧ IsWhole whole ∧ IsFraction fraction ∧
          FractionStops fraction rest) := by
  refine ⟨fun kind => kind.match?_pattern text, firstLexeme?_eq_findSome?_match? text, ?_⟩
  intro lexeme
  simp only [Kind.match?_pattern, Kind.lexeme?]
  refine ⟨?_, ?_, regex_eq_some_iff_takeWhile, number_eq_some_iff⟩
  · rw [phrase_eq_some_iff]
    simp [joinsWords]
  · rw [quoted_eq_some_iff]
    simp only [isEscaped_iff]
    constructor
    · rintro ⟨content, rest, rfl, rfl, escaped⟩
      exact ⟨content, rest, by simp, escaped, rfl⟩
    · rintro ⟨content, rest, rfl, escaped, rfl⟩
      exact ⟨content, rest, rfl, by simp, escaped⟩

end UrlFilter
