import UrlFilter.Proofs.Expression.Connected
import UrlFilter.Proofs.Expression.Source
import UrlFilter.Proofs.Failure
import UrlFilter.Proofs.Filter
import UrlFilter.Proofs.Token.Alone

/-!
# Bare words

A text made of characters of words is a word unless a literal of another kind starts it. Words are
the names that a field may have: a word is taken up to the comparator behind it, whatever text the
comparator has behind it.
-/

namespace UrlFilter

open Text Lexeme Numeral

namespace Lexeme

/-- No literal of another kind stands at the start of a word: no truth value and no null, no digit
from one to nine, and no zero that is last or in front of anything but a digit. -/
structure StartsPlain (word : List Char) : Prop where
  noName : ∀ name ∈ ["true", "false", "null"], ¬ name.toList <+: word
  noDigit : ∀ c ∈ word.head?, ¬ ('1' ≤ c ∧ c ≤ '9')
  zero : ∀ rest, word = '0' :: rest → rest.head?.any Char.isDigit = true

section Words

variable {word : List Char}

/-- A word starts as no number does exactly if no digit from one to nine is its first character and
a digit follows a zero that is. -/
theorem startsNumber_eq_false_iff :
    startsNumber word = false ↔
      (∀ c ∈ word.head?, ¬ ('1' ≤ c ∧ c ≤ '9')) ∧
        ∀ rest, word = '0' :: rest → rest.head?.any Char.isDigit = true := by
  cases word with
  | nil => simp [startsNumber]
  | cons c others =>
    by_cases isZero : c = '0'
    · subst isZero
      have small : ¬ ('1' ≤ '0') := by decide
      simp [startsNumber, small]
    · rw [startsNumber.eq_3 _ _ isZero]
      simp [isZero]

/-- A bare word is made of characters of words and starts as no other literal does. -/
theorem isBareWord_iff_startsPlain (nonempty : word ≠ [])
    (wordChars : ∀ c ∈ word, isWordChar c = true) :
    isBareWord word = true ↔ StartsPlain word := by
  rw [isBareWord_iff, startsNumber_eq_false_iff]
  constructor
  · rintro ⟨_, _, ⟨noDigit, zero⟩, noName⟩
    refine ⟨?_, noDigit, zero⟩
    intro name isName starts
    have found := List.isPrefixOf_iff_prefix.mpr starts
    rw [noName name isName] at found
    cases found
  · rintro ⟨noName, noDigit, zero⟩
    refine ⟨nonempty, wordChars, ⟨noDigit, zero⟩, ?_⟩
    intro name isName
    rw [← Bool.not_eq_true, List.isPrefixOf_iff_prefix]
    exact noName name isName

/-- Where a word starts as numbers do, a number is found. -/
theorem exists_number_of_startsNumber (wordChars : ∀ c ∈ word, isWordChar c = true)
    (starts : startsNumber word = true) : ∃ lexeme, number word = some lexeme := by
  cases word with
  | nil => cases starts
  | cons c others =>
    have notSign : c ≠ '-' := by
      rintro rfl
      exact absurd (wordChars '-' List.mem_cons_self) (by decide)
    have unsigned : number (c :: others) = unsignedNumber (c :: others) := by
      simp [number, notSign]
    have whole : ∃ digits, wholePart (c :: others) = some digits := by
      by_cases isZero : c = '0'
      · subst isZero
        have noDigit : others.head?.any Char.isDigit = false := by
          simpa [startsNumber] using starts
        have noDecimalDigit : others.head?.any isDecimalDigit = false := by
          cases others with
          | nil => rfl
          | cons next later =>
            have nextWord := wordChars next (by simp)
            simpa [isDecimalDigit_of_isWordChar nextWord] using noDigit
        exact ⟨['0'], by simp [wholePart, noDecimalDigit]⟩
      · rw [startsNumber.eq_3 _ _ isZero] at starts
        rw [wholePart.eq_3 _ _ isZero, if_pos (by simpa using starts)]
        exact ⟨_, rfl⟩
    obtain ⟨digits, found⟩ := whole
    exact ⟨_, by rw [unsigned, unsignedNumber, found, Option.map_some]⟩

/-- A text that is taken as a word, whole, is a bare word. -/
theorem isBareWord_of_firstLexeme? (taken : firstLexeme? word = some (.word, word)) :
    isBareWord word = true := by
  obtain ⟨found, untaken⟩ := firstLexeme?_eq_some_iff.mp taken
  obtain ⟨nonempty, wordChars, _⟩ := run_eq_some_iff.mp found
  refine isBareWord_iff.mpr ⟨nonempty, wordChars, ?_, ?_⟩
  · rw [← Bool.not_eq_true]
    intro starts
    obtain ⟨lexeme, numberFound⟩ := exists_number_of_startsNumber wordChars starts
    have noNumber : number word = none := untaken .number (by decide)
    rw [noNumber] at numberFound
    cases numberFound
  · intro name isName
    rw [← Bool.not_eq_true, List.isPrefixOf_iff_prefix]
    rintro ⟨rest, same⟩
    -- A truth value or a null would have been taken instead.
    have spelling : ∃ kind ∈ Kind.word.before, kind.lexeme? word = some name.toList := by
      simp only [List.mem_cons, List.not_mem_nil, or_false] at isName
      rcases isName with rfl | rfl | rfl
      · exact ⟨.boolean, by decide, Kind.boolean_eq_some_iff.mpr ⟨.inl rfl, rest, same.symm⟩⟩
      · exact ⟨.boolean, by decide, Kind.boolean_eq_some_iff.mpr ⟨.inr rfl, rest, same.symm⟩⟩
      · exact ⟨.null, by decide, spelled_eq_some_iff.mpr ⟨rfl, rest, same.symm⟩⟩
    obtain ⟨kind, isEarlier, nameFound⟩ := spelling
    rw [untaken kind isEarlier] at nameFound
    cases nameFound

end Words

end Lexeme

section Fields

variable {word text : String} {comparator : Comparator}

/-- A text made of characters of words is one word exactly if it is a bare word. -/
theorem tokenize_eq_word_iff (wordChars : ∀ c ∈ word.toList, isWordChar c = true)
    (nonempty : word.toList ≠ []) :
    tokenize word = .ok [⟨.word, word, 0⟩] ↔ isBareWord word.toList = true := by
  constructor
  · intro scanned
    obtain ⟨scan, reads, _, isScan⟩ := reads_of_tokenize scanned
    obtain ⟨c, others, characters⟩ := List.exists_cons_of_ne_nil nonempty
    rw [characters] at reads
    have isWord := wordChars c (by simp [characters])
    obtain ⟨rest, _, _, same, taken, _⟩ :=
      reads.first_of_not_blank (phraseChar_of_isWordChar isWord).2.2 isScan
    rw [← same, ← characters] at taken
    exact isBareWord_of_firstLexeme? taken
  · intro bare
    have taken := firstLexeme?_bareWord bare .nil
    rw [List.append_nil] at taken
    exact tokenize_of_firstLexeme? (by decide) taken

/-- A text that is one literal does not start with an equality sign. -/
theorem noEqual_of_tokenize {token : Token} (scanned : tokenize text = .ok [token])
    (isLiteral : token.kind ∈ Kind.literals) : ∀ c ∈ text.toList.head?, c ≠ '=' := by
  obtain ⟨scan, reads, _, isScan⟩ := reads_of_tokenize scanned
  intro c isFirst
  rintro rfl
  obtain ⟨others, characters⟩ := List.head?_eq_some_iff.mp isFirst
  rw [characters] at reads
  obtain ⟨rest, _, _, same, taken, _⟩ := reads.first_of_not_blank (by decide) isScan
  rw [← same] at taken
  exact noEqual_of_isLiteral isLiteral (firstLexeme?_eq_some_iff.mp taken).1 '=' rfl rfl

/-- A bare word and a comparator are scanned in front of any text that does not start with an
equality sign. -/
theorem tokenize_comparison {tokens : List Token} (bare : isBareWord word.toList = true)
    (scanned : tokenize text = .ok tokens) (noEqual : ∀ c ∈ text.toList.head?, c ≠ '=') :
    tokenize (word ++ comparator.symbol ++ text) =
      .ok (⟨.word, word, 0⟩ :: ⟨comparator.kind, comparator.symbol, word.length⟩ ::
        tokens.map (Token.shift (word.length + comparator.symbol.length))) := by
  obtain ⟨scan, reads, noFailure, rfl⟩ := reads_of_tokenize scanned
  have fieldTaken := firstLexeme?_bareWord bare (delimited_comparator comparator text.toList)
  have symbolTaken := comparator.firstLexeme?_symbol noEqual
  have notBlank : comparator.kind ≠ .blank := by
    cases comparator <;> decide
  have behind := reads.shift (word.length + comparator.symbol.length)
  rw [Nat.zero_add] at behind
  simp only [← String.length_toList] at behind ⊢
  have all : Scan.Reads 0 (word.toList ++ (comparator.symbol.toList ++ text.toList)) _ :=
    .lexeme fieldTaken (.lexeme symbolTaken (by rwa [Nat.zero_add]))
  rw [← List.append_assoc, ← String.toList_append, ← String.toList_append] at all
  rw [tokenize_of_reads all, Scan.push_failure, Scan.push_failure]
  simp [Scan.shift, Scan.push, notBlank, noFailure, String.ofList_toList]

end Fields

/-- The text is read as the comparison of a field with a literal: the one constraint of its tree is
that of the field by the comparator, and only the operator is recorded for the field. -/
def ReadsComparison (depthLimit : Int) (insights : Insights) (text field : String)
    (comparator : Comparator) (literal : Literal) : Prop :=
  ∃ filter : Filter,
    parseFilter depthLimit text insights =
      .ok filter (insights.record (field, (Operator.compare comparator).tag)) ∧
    filter.node = .comparison [(field, if comparator = .equal then literal.value
      else .map [((Operator.compare comparator).tag, literal.value)])] ∧
    filter.node.constraints = [⟨field, (Operator.compare comparator).tag, literal.value⟩]

/-- A bare word, a comparator and a text that is one literal are read as a comparison. -/
theorem readsComparison_of_tokenize {word text : String} {comparator : Comparator} {token : Token}
    {literal : Literal} (bare : isBareWord word.toList = true)
    (scanned : tokenize text = .ok [token]) (isLiteral : token.kind ∈ Kind.literals)
    (reads : Literal.ofToken token = .ok literal) (depthLimit : Int) (insights : Insights) :
    ReadsComparison depthLimit insights (word ++ comparator.symbol ++ text) word comparator
      literal := by
  have operand : literal.Derives [token.shift (word.length + comparator.symbol.length)] :=
    (Literal.Derives.token isLiteral reads).shift _
  have derived : Clause.Derives (.comparison word comparator literal)
      [⟨.word, word, 0⟩, ⟨comparator.kind, comparator.symbol, word.length⟩,
        token.shift (word.length + comparator.symbol.length)] :=
    .comparison (@FieldDerives.token ⟨.word, word, 0⟩ rfl) rfl operand
  have accepted : parseFilter depthLimit (word ++ comparator.symbol ++ text) insights =
      .ok ⟨.single (.single (.clause (.comparison word comparator literal))), 3⟩ _ :=
    parseFilter_eq_ok.mpr ⟨_, tokenize_comparison bare scanned
      (noEqual_of_tokenize scanned isLiteral), rfl, .single (.single (.clause derived)), .inl rfl,
      rfl⟩
  -- A plain value stands for a constraint by equality.
  have plain : (Node.comparison [(word, literal.value)]).constraints =
      [⟨word, equalTag, literal.value⟩] := by
    simp [Node.constraints, Node.fieldConstraints, Literal.operators_value]
  refine ⟨_, accepted, ?_, ?_⟩
  · cases comparator <;> rfl
  · cases comparator with
    | equal => exact plain
    | notEqual | greater | atLeast | less | atMost | matching => rfl

/-- Which texts made of characters of words are words, and what a word in front of a comparator and
a literal is read as: the comparison of the field that the word names. An integer must not have too
many digits to be read. -/
theorem parseFilter_bareWord {word : String} (nonempty : word ≠ "")
    (wordChars : ∀ c ∈ word.toList, isWordChar c = true) :
    (tokenize word = .ok [⟨.word, word, 0⟩] ↔ StartsPlain word.toList) ∧
    (StartsPlain word.toList →
      ∀ (comparator : Comparator) (text : String) (token : Token),
        tokenize text = .ok [token] → token.kind ∈ Kind.literals →
        (token.kind = .number → '.' ∉ token.text.toList →
          token.digitCount ≤ Integer.digitLimit) →
        ∃ literal, Literal.ofToken token = .ok literal ∧
          ∀ (depthLimit : Int) (insights : Insights),
            ReadsComparison depthLimit insights (word ++ comparator.symbol ++ text) word comparator
              literal) := by
  have characters : word.toList ≠ [] := by
    simpa using nonempty
  have isPlain := isBareWord_iff_startsPlain characters wordChars
  refine ⟨(tokenize_eq_word_iff wordChars characters).trans isPlain, ?_⟩
  intro plain comparator text token scanned isLiteral short
  have bare := isPlain.mpr plain
  obtain ⟨_, _, taken⟩ := takenFrom_of_tokenize scanned token List.mem_cons_self
  cases reads : Literal.ofToken token with
  | ok literal =>
    exact ⟨literal, rfl, readsComparison_of_tokenize bare scanned isLiteral reads⟩
  | error failure =>
    exfalso
    rcases taken.ofToken_error reads with ⟨_, notLiteral⟩ | ⟨_, isNumber, noPoint, long⟩
    · exact notLiteral isLiteral
    · exact absurd (short isNumber noPoint) (Nat.not_le.mpr long)

/-- A zero may start a word in front of another digit, although numbers are tried first. Blanks
around the literal do not matter. -/
theorem parseFilter_bareWord_leadingZero :
    "007" ≠ "" ∧ (∀ c ∈ "007".toList, isWordChar c = true) ∧ StartsPlain "007".toList ∧
      tokenize "007" = .ok [⟨.word, "007", 0⟩] ∧
      tokenize " -12 " = .ok [⟨.number, "-12", 1⟩] ∧
      (⟨.number, "-12", 1⟩ : Token).digitCount ≤ Integer.digitLimit ∧
      ReadsComparison 1 Insights.empty "007>= -12 " "007" .atLeast (.integer (-12)) := by
  have wordChars : ∀ c ∈ "007".toList, isWordChar c = true :=
    List.all_eq_true.mp (by decide)
  have settled := parseFilter_bareWord (by decide) wordChars
  have word : tokenize "007" = .ok [⟨.word, "007", 0⟩] := by rfl
  have scanned : tokenize " -12 " = .ok [⟨.number, "-12", 1⟩] := by rfl
  have plain := settled.1.mp word
  have short : (⟨.number, "-12", 1⟩ : Token).digitCount ≤ Integer.digitLimit := by decide
  obtain ⟨literal, reads, comparison⟩ :=
    settled.2 plain .atLeast " -12 " _ scanned (by decide) fun _ _ => short
  have isRead : Literal.ofToken ⟨.number, "-12", 1⟩ = .ok (.integer (-12)) := by rfl
  rw [isRead] at reads
  cases reads
  exact ⟨by decide, wordChars, plain, word, scanned, short, comparison 1 Insights.empty⟩

end UrlFilter
