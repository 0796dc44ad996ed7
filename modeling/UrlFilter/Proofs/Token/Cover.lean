import UrlFilter.Proofs.Token.Scan

/-!
# Tokens cover the text

The tokens of a text and the blanks between them are all of it, in order. A text without tokens is
covered in the same way up to the character that starts none, and that is never a letter, a digit,
a blank or one of the signs that are tokens by themselves.
-/

namespace UrlFilter

open Text Lexeme

/-- From an offset on, the text is made of the tokens in order and of blanks around them. -/
inductive Token.Tile : Nat → List Char → List Token → Prop where
  | done {offset : Nat} : Tile offset [] []
  | blanks {offset : Nat} {gap rest : List Char} {tokens : List Token}
      (blank : ∀ c ∈ gap, isBlank c = true) (further : Tile (offset + gap.length) rest tokens) :
      Tile offset (gap ++ rest) tokens
  | token {offset : Nat} {token : Token} {rest : List Char} {tokens : List Token}
      (isOffset : token.offset = offset) (nonempty : token.text ≠ "")
      (notBlank : token.kind ≠ .blank)
      (further : Tile (offset + token.text.length) rest tokens) :
      Tile offset (token.text.toList ++ rest) (token :: tokens)

/-- The tokens cover the text: each is the part of the text between its ends, no two overlap, and
the characters outside them are blanks. -/
structure Token.Cover (text : List Char) (tokens : List Token) : Prop where
  tile : Tile 0 text tokens
  notBlank : ∀ token ∈ tokens, token.kind ≠ .blank
  nonempty : ∀ token ∈ tokens, token.text ≠ ""
  inside : ∀ token ∈ tokens, 0 ≤ token.offset ∧ token.stop ≤ text.length
  slice : ∀ token ∈ tokens,
    (text.drop token.offset.toNat).take token.text.length = token.text.toList
  ordered : tokens.Pairwise fun first second => first.stop ≤ second.offset
  outside : ∀ (index : Nat) (c : Char), text[index]? = some c →
    (∀ token ∈ tokens, ¬ (token.offset ≤ index ∧ index < token.stop)) → isBlank c = true

namespace Token.Tile

variable {offset : Nat} {text : List Char} {tokens : List Token}

/-- A lexeme that is no blank is a token. -/
theorem lexeme {kind : Kind} {lexeme : List Char} (nonempty : lexeme ≠ [])
    (notBlank : kind ≠ .blank) (further : Tile (offset + lexeme.length) text tokens) :
    Tile offset (lexeme ++ text) (⟨kind, String.ofList lexeme, offset⟩ :: tokens) := by
  have characters : (String.ofList lexeme).toList = lexeme := String.toList_ofList
  have tile : Tile offset ((String.ofList lexeme).toList ++ text)
      (⟨kind, String.ofList lexeme, offset⟩ :: tokens) := by
    refine @Tile.token offset ⟨kind, String.ofList lexeme, offset⟩ text tokens rfl ?_ notBlank ?_
    · rwa [Ne, ← String.toList_eq_nil_iff, characters]
    · rwa [String.length_ofList]
  rwa [characters] at tile

/-- Each token stands behind the offset where the text starts, as far as its own offset says. -/
theorem split (tile : Tile offset text tokens) : ∀ token ∈ tokens,
    token.kind ≠ .blank ∧ token.text ≠ "" ∧ ∃ front back,
      text = front ++ (token.text.toList ++ back) ∧
        token.offset = (offset + front.length : Nat) := by
  induction tile with
  | done => simp
  | @blanks offset gap rest tokens blank further inductionHypothesis =>
    intro token isToken
    obtain ⟨notBlank, nonempty, front, back, rfl, isOffset⟩ := inductionHypothesis token isToken
    refine ⟨notBlank, nonempty, gap ++ front, back, (List.append_assoc ..).symm, ?_⟩
    rw [isOffset, List.length_append]
    omega
  | @token offset first rest tokens isOffset nonempty notBlank further inductionHypothesis =>
    rw [List.forall_mem_cons]
    refine ⟨⟨notBlank, nonempty, [], rest, rfl, by simpa using isOffset⟩, ?_⟩
    intro token isToken
    obtain ⟨notBlank, nonempty, front, back, rfl, isOffset⟩ := inductionHypothesis token isToken
    refine ⟨notBlank, nonempty, first.text.toList ++ front, back,
      (List.append_assoc ..).symm, ?_⟩
    rw [isOffset, List.length_append, String.length_toList]
    omega

/-- No two tokens overlap. -/
theorem ordered (tile : Tile offset text tokens) :
    tokens.Pairwise fun first second => first.stop ≤ second.offset := by
  induction tile with
  | done => exact .nil
  | blanks blank further inductionHypothesis => exact inductionHypothesis
  | token isOffset nonempty notBlank further inductionHypothesis =>
    refine .cons ?_ inductionHypothesis
    intro later isLater
    obtain ⟨_, _, front, _, _, laterOffset⟩ := further.split later isLater
    rw [Token.stop, isOffset, laterOffset]
    omega

/-- A character outside the tokens is a blank. -/
theorem outside (tile : Tile offset text tokens) {index : Nat} {c : Char}
    (isChar : text[index]? = some c)
    (uncovered : ∀ token ∈ tokens,
      ¬ (token.offset ≤ offset + index ∧ offset + index < token.stop)) : isBlank c = true := by
  induction tile generalizing index with
  | done => simp at isChar
  | @blanks offset gap rest tokens blank further inductionHypothesis =>
    by_cases inGap : index < gap.length
    · rw [List.getElem?_append_left inGap] at isChar
      exact blank c (List.mem_of_getElem? isChar)
    · rw [List.getElem?_append_right (by omega)] at isChar
      have same : ((offset + gap.length : Nat) : Int) + (index - gap.length : Nat) =
          offset + index := by
        omega
      refine inductionHypothesis isChar ?_
      rw [same]
      exact uncovered
  | @token offset first rest tokens isOffset nonempty notBlank further inductionHypothesis =>
    obtain ⟨notFirst, notLater⟩ := List.forall_mem_cons.mp uncovered
    rw [Token.stop, isOffset] at notFirst
    have behind : first.text.toList.length ≤ index := by
      rw [String.length_toList]
      omega
    rw [List.getElem?_append_right behind] at isChar
    rw [String.length_toList] at behind isChar
    have same : ((offset + first.text.length : Nat) : Int) + (index - first.text.length : Nat) =
        offset + index := by
      omega
    refine inductionHypothesis isChar ?_
    rw [same]
    exact notLater

/-- Text that is made of tokens and blanks is covered by the tokens. -/
theorem cover (tile : Tile 0 text tokens) : Cover text tokens := by
  have slices : ∀ token ∈ tokens, 0 ≤ token.offset ∧ token.stop ≤ text.length ∧
      (text.drop token.offset.toNat).take token.text.length = token.text.toList := by
    intro token isToken
    obtain ⟨_, _, front, back, rfl, isOffset⟩ := tile.split token isToken
    rw [Nat.zero_add] at isOffset
    exact Token.slice_of_append back isOffset
  exact
    { tile := tile
      notBlank := fun token isToken => (tile.split token isToken).1
      nonempty := fun token isToken => (tile.split token isToken).2.1
      inside := fun token isToken => ⟨(slices token isToken).1, (slices token isToken).2.1⟩
      slice := fun token isToken => (slices token isToken).2.2
      ordered := tile.ordered
      outside := by
        intro index c isChar uncovered
        refine tile.outside isChar ?_
        simpa using uncovered }

end Token.Tile

namespace Scan

/-- A scan covers the text up to its end or up to a character where no lexeme is found. -/
theorem Reads.tile {offset : Nat} {text : List Char} {scan : Scan}
    (reads : Reads offset text scan) :
    ∃ covered rest, text = covered ++ rest ∧ Token.Tile offset covered scan.tokens ∧
      (scan.failure = none ∧ rest = [] ∨
        ∃ c back, scan.failure = some ⟨offset + covered.length, c⟩ ∧ rest = c :: back ∧
          firstLexeme? rest = none) := by
  induction reads with
  | done => exact ⟨[], [], rfl, .done, .inl ⟨rfl, rfl⟩⟩
  | @stuck offset c back nothing =>
    exact ⟨[], c :: back, rfl, .done, .inr ⟨c, back, rfl, rfl, nothing⟩⟩
  | @lexeme offset kind lexeme rest scan taken further inductionHypothesis =>
    obtain ⟨covered, left, rfl, tile, ending⟩ := inductionHypothesis
    refine ⟨lexeme ++ covered, left, (List.append_assoc ..).symm, ?_, ?_⟩
    · unfold push
      split
      · next isBlankKind =>
        rw [isBlankKind] at taken
        obtain ⟨_, blank, _⟩ := run_eq_some_iff.mp (firstLexeme?_eq_some_iff.mp taken).1
        exact .blanks blank tile
      · next notBlank =>
        have nonempty := (Kind.lexeme?_prefix (firstLexeme?_eq_some_iff.mp taken).1).1
        exact .lexeme nonempty notBlank tile
    · rw [push_failure, List.length_append, ← Nat.add_assoc]
      exact ending

end Scan

namespace Lexeme

/-- A sign that is a token by itself. -/
def isSingle (c : Char) : Bool :=
  ['=', '>', '<', '!', '^', '&', '(', ')', '\x7b', '\x7d', ','].contains c

/-- A letter, a digit, an underscore, a point, a blank or a sign that is a token by itself. -/
def isAlwaysTaken (c : Char) : Bool :=
  c.isAlphanum || c == '_' || c == '.' || isBlank c || isSingle c

/-- A sign starts a lexeme whatever follows. -/
theorem exists_lexeme?_of_isSingle {c : Char} (single : isSingle c = true) (rest : List Char) :
    ∃ kind : Kind, kind.lexeme? (c :: rest) = some [c] := by
  simp only [isSingle, List.contains_eq_mem, List.mem_cons, List.not_mem_nil, or_false,
    decide_eq_true_eq] at single
  rcases single with rfl | rfl | rfl | rfl | rfl | rfl | rfl | rfl | rfl | rfl | rfl
  · exact ⟨.equal, rfl⟩
  · exact ⟨.greater, rfl⟩
  · exact ⟨.less, rfl⟩
  · exact ⟨.bang, rfl⟩
  · exact ⟨.or, rfl⟩
  · exact ⟨.and, rfl⟩
  · exact ⟨.openGroup, rfl⟩
  · exact ⟨.closeGroup, rfl⟩
  · exact ⟨.openList, rfl⟩
  · exact ⟨.closeList, rfl⟩
  · exact ⟨.comma, rfl⟩

/-- A lexeme of one character is a word, blank, or a sign. -/
theorem isAlwaysTaken_of_lexeme? {kind : Kind} {c : Char} {lexeme : List Char}
    (found : kind.lexeme? [c] = some lexeme) : isAlwaysTaken c = true := by
  cases kind with
  | regex =>
    obtain ⟨_, _, _, rfl, same, _⟩ := regex_eq_some_iff.mp found
    simp at same
  | quoted =>
    obtain ⟨_, _, rfl, same, _⟩ := quoted_eq_some_iff.mp found
    simp at same
  | number =>
    obtain ⟨_, _, _, _, rfl, same, isSign, isWhole, _⟩ := number_eq_some_iff.mp found
    obtain ⟨digit, others, rfl, isDigit⟩ := isWhole.head
    rcases isSign with rfl | rfl
    · have isFirst : c = digit := by simpa using congrArg List.head? same
      simp [isAlwaysTaken, Char.isAlphanum, isFirst, isDigit]
    · simp at same
  | keyword =>
    obtain ⟨_, _, _, rfl, same, _, nonempty, _⟩ := keyword_eq_some_iff.mp found
    simp [nonempty] at same
  | phrase =>
    obtain ⟨same, first, others, rfl, _, joins⟩ := phrase_eq_some_iff.mp found
    have short : (first :: others).length ≤ [c].length := by
      rw [same]
      exact (List.takeWhile_prefix _).length_le
    have isEmpty : others = [] := by simpa using short
    simp [isEmpty] at joins
  | word =>
    have isWord := Kind.mayStart_of_lexeme? found
    simp only [Kind.mayStart, isWordChar, isNameChar] at isWord
    simp [isAlwaysTaken, isWord]
  | blank =>
    have blank := Kind.mayStart_of_lexeme? found
    simp only [Kind.mayStart] at blank
    simp [isAlwaysTaken, blank]
  | boolean =>
    obtain ⟨rfl | rfl, _, same⟩ := Kind.boolean_eq_some_iff.mp found <;> cases same
  | null | notEqual | atLeast | atMost | matching =>
    obtain ⟨rfl, _, same⟩ := spelled_eq_some_iff.mp found
    cases same
  | equal | greater | less | or | and | openGroup | closeGroup | openList | closeList | comma
  | bang =>
    obtain ⟨rfl, _, same⟩ := spelled_eq_some_iff.mp found
    cases same
    rfl

/-- Such a character starts a lexeme whatever follows. -/
theorem firstLexeme?_of_isAlwaysTaken {c : Char} (always : isAlwaysTaken c = true)
    (rest : List Char) : firstLexeme? (c :: rest) ≠ none := by
  intro nothing
  rw [firstLexeme?_eq_none_iff] at nothing
  have noRun : ∀ inClass : Char → Bool, inClass c = true → run inClass (c :: rest) ≠ none := by
    intro inClass isIn
    obtain ⟨longer, found⟩ := exists_run (List.cons_ne_nil c []) (by simpa using isIn) rest
    rw [List.singleton_append] at found
    simp [found]
  simp only [isAlwaysTaken, Bool.or_eq_true] at always
  rcases always with (isWord | blank) | single
  · have inClass : isWordChar c = true := by simpa [isWordChar, isNameChar] using isWord
    exact noRun isWordChar inClass (nothing .word)
  · exact noRun isBlank blank (nothing .blank)
  · obtain ⟨kind, found⟩ := exists_lexeme?_of_isSingle single rest
    rw [nothing kind] at found
    cases found

/-- Any other character starts none where it stands alone. -/
theorem firstLexeme?_singleton {c : Char} (notAlways : isAlwaysTaken c = false) :
    firstLexeme? [c] = none := by
  rw [firstLexeme?_eq_none_iff]
  intro kind
  cases found : kind.lexeme? [c] with
  | none => rfl
  | some lexeme =>
    rw [isAlwaysTaken_of_lexeme? found] at notAlways
    cases notAlways

end Lexeme

/-- Tokens and blanks cover a text that has tokens. A text without tokens is covered by those in
front of a character that is not always taken, so a text of characters that are has tokens. Of
the other characters none is a text with tokens. -/
theorem tokenize_covers (text : String) :
    ((∃ tokens, tokenize text = .ok tokens ∧ Token.Cover text.toList tokens) ∨
      ∃ error before back, tokenize text = .error error ∧
        text.toList = before ++ error.char :: back ∧ error.offset = before.length ∧
        Token.Cover before (Scan.read text).tokens ∧ isAlwaysTaken error.char = false) ∧
    ((∀ c ∈ text.toList, isAlwaysTaken c = true) → ∃ tokens, tokenize text = .ok tokens) ∧
    ∀ c, isAlwaysTaken c = false → tokenize (String.singleton c) = .error ⟨0, c⟩ := by
  refine ⟨?_, ?_, ?_⟩
  · obtain ⟨covered, rest, same, tile, ⟨noFailure, rfl⟩ | ⟨c, back, failure, rfl, nothing⟩⟩ :=
      (Scan.reads_readFrom 0 text.toList).tile
    · refine .inl ⟨(Scan.read text).tokens, ?_, ?_⟩
      · simp [tokenize, Scan.read, noFailure]
      · rw [same, List.append_nil]
        exact tile.cover
    · refine .inr ⟨⟨covered.length, c⟩, covered, back, ?_, same, rfl, tile.cover, ?_⟩
      · simp [tokenize, Scan.read, failure]
      · have notAlways : ¬ isAlwaysTaken c = true := fun always =>
          firstLexeme?_of_isAlwaysTaken always back nothing
        simpa using notAlways
  · intro always
    cases scanned : tokenize text with
    | ok tokens => exact ⟨tokens, rfl⟩
    | error error =>
      obtain ⟨before, back, same, _, nothing⟩ := stuckAt_of_tokenize scanned
      have isChar : error.char ∈ text.toList := by simp [same]
      exact absurd nothing (firstLexeme?_of_isAlwaysTaken (always error.char isChar) back)
  · intro c notAlways
    have stuck : Scan.Reads 0 [c] ⟨[], some ⟨0, c⟩⟩ := .stuck (firstLexeme?_singleton notAlways)
    simp [tokenize, Scan.read, ← stuck.eq]

end UrlFilter
