import UrlFilter.Regex

/-!
# Reading regular-expression literals

The last slash of a written literal ends its pattern, whatever the pattern holds, so every
literal is read back from its source.
-/

namespace UrlFilter

namespace RegexFlag

/-- No slash is a flag. -/
theorem ne_slash {c : Char} (isLetter : isLetter c = true) : c ≠ '/' := by
  rintro rfl
  exact absurd isLetter (by decide)

/-- A letter that writes a flag is its letter. -/
theorem exists_letter {c : Char} (isLetter : isLetter c = true) :
    ∃ flag : RegexFlag, flag.letter = c := by
  obtain ⟨flag, isFlag⟩ := Option.isSome_iff_exists.mp isLetter
  refine ⟨flag, ?_⟩
  unfold ofLetter? at isFlag
  split at isFlag <;> cases isFlag <;> rfl

/-- Letters that write flags are the letters of flags. -/
theorem exists_letters {letters : List Char} (all : ∀ c ∈ letters, isLetter c = true) :
    ∃ flags : List RegexFlag, flags.map letter = letters := by
  induction letters with
  | nil => exact ⟨[], rfl⟩
  | cons c others inductionHypothesis =>
    rw [List.forall_mem_cons] at all
    obtain ⟨flag, rfl⟩ := exists_letter all.1
    obtain ⟨flags, rfl⟩ := inductionHypothesis all.2
    exact ⟨flag :: flags, rfl⟩

end RegexFlag

namespace Regex

/-- The last slash ends the pattern. -/
theorem splitSource_of_no_slash {flags : List Char} (noSlash : ∀ c ∈ flags, c ≠ '/')
    (pattern : List Char) :
    splitSource ('/' :: (pattern ++ '/' :: flags)) = (pattern, flags) := by
  have reversed : ('/' :: (pattern ++ '/' :: flags)).reverse =
      flags.reverse ++ '/' :: (pattern.reverse ++ ['/']) := by
    simp
  have beforeSlash : ('/' :: (pattern ++ '/' :: flags)).reverse.takeWhile (· != '/') =
      flags.reverse := by
    have letters : ∀ c ∈ flags.reverse, (c != '/') = true := by
      intro c isFlag
      simpa using noSlash c (List.mem_reverse.mp isFlag)
    rw [reversed, List.takeWhile_append_of_pos letters]
    simp
  have lengths : ('/' :: (pattern ++ '/' :: flags)).length - flags.length - 1 =
      ('/' :: pattern).length := by
    simp only [List.length_cons, List.length_append]
    omega
  have front : ('/' :: (pattern ++ '/' :: flags)).take ('/' :: pattern).length =
      '/' :: pattern := by
    rw [← List.cons_append, List.take_left]
  have longer : flags.length ≠ ('/' :: (pattern ++ '/' :: flags)).length := by
    simp only [List.length_cons, List.length_append]
    omega
  simp only [splitSource, beforeSlash, List.reverse_reverse, if_neg longer, lengths, front,
    List.drop_succ_cons, List.drop_zero]

/-- The letters of flags are read as these flags. -/
theorem readFlags_letters (flags : List RegexFlag) :
    readFlags (flags.map RegexFlag.letter) = .ok flags := by
  induction flags with
  | nil => rfl
  | cons flag others inductionHypothesis =>
    rw [List.map_cons, readFlags, RegexFlag.ofLetter?_letter, inductionHypothesis]
    rfl

/-- The characters of a written literal. -/
theorem toList_source (literal : Regex) :
    literal.source.toList =
      '/' :: (literal.pattern.toList ++ '/' :: literal.flags.map RegexFlag.letter) := by
  simp [source, flagText]

/-- The letters of flags write flags. -/
theorem isLetter_of_mem {flags : List RegexFlag} :
    ∀ c ∈ flags.map RegexFlag.letter, RegexFlag.isLetter c = true := by
  intro c isLetter
  obtain ⟨flag, _, rfl⟩ := List.mem_map.mp isLetter
  cases flag <;> rfl

/-- Every literal has its pattern and the letters of its flags as parts. -/
theorem ofParts_flagText (literal : Regex) :
    ofParts literal.pattern literal.flagText = .ok literal := by
  rw [ofParts, flagText, String.toList_ofList, readFlags_letters]
  rfl

/-- The last slash of a written literal ends its pattern. -/
theorem splitSource_source (literal : Regex) :
    splitSource literal.source.toList =
      (literal.pattern.toList, literal.flags.map RegexFlag.letter) := by
  rw [literal.toList_source]
  exact splitSource_of_no_slash (fun c isFlag => RegexFlag.ne_slash (isLetter_of_mem c isFlag)) _

/-- Every literal is read back from its source. -/
theorem ofSource_source (literal : Regex) : ofSource literal.source = .ok literal := by
  simp only [ofSource, literal.splitSource_source, String.ofList_toList]
  exact literal.ofParts_flagText

/-- A pattern between slashes with flags behind it is a literal, and the literal is written in
the same way. -/
theorem exists_ofSource {text : String} {pattern flags : List Char}
    (same : text.toList = '/' :: (pattern ++ '/' :: flags))
    (all : ∀ c ∈ flags, RegexFlag.isLetter c = true) :
    ∃ literal, ofSource text = .ok literal ∧ literal.source = text := by
  obtain ⟨parsed, rfl⟩ := RegexFlag.exists_letters all
  have written : (⟨String.ofList pattern, parsed⟩ : Regex).source = text := by
    rw [← String.toList_inj, toList_source, same, String.toList_ofList]
  exact ⟨⟨String.ofList pattern, parsed⟩, written ▸ ofSource_source _, written⟩

end Regex

end UrlFilter
