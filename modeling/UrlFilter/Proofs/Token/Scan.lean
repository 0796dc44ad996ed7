import UrlFilter.Proofs.Token.Priority
import UrlFilter.Token.Lexer

/-!
# Scans lexeme by lexeme

A text is scanned by taking one lexeme after the other. `Scan.Reads` says so as a relation;
what holds of every token of a scan is proved by induction on it.
-/

namespace UrlFilter

namespace Scan

/-- A lexeme adds a token unless it is blank. -/
theorem mem_push_iff {kind : Kind} {lexeme : List Char} {offset : Nat} {scan : Scan}
    {token : Token} : token ∈ (scan.push kind lexeme offset).tokens ↔
      (kind ≠ .blank ∧ token = ⟨kind, String.ofList lexeme, offset⟩) ∨ token ∈ scan.tokens := by
  by_cases isBlankKind : kind = .blank <;> simp [push, isBlankKind]

@[simp] theorem push_failure (kind : Kind) (lexeme : List Char) (offset : Nat) (scan : Scan) :
    (scan.push kind lexeme offset).failure = scan.failure := by
  unfold push
  split <;> rfl

/-- From an offset on, the text is scanned lexeme by lexeme, up to its end or up to a
character where no lexeme is found. -/
inductive Reads : Nat → List Char → Scan → Prop where
  | done {offset : Nat} : Reads offset [] ⟨[], none⟩
  | stuck {offset : Nat} {c : Char} {rest : List Char}
      (nothing : firstLexeme? (c :: rest) = none) :
      Reads offset (c :: rest) ⟨[], some ⟨offset, c⟩⟩
  | lexeme {offset : Nat} {kind : Kind} {lexeme rest : List Char} {scan : Scan}
      (taken : firstLexeme? (lexeme ++ rest) = some (kind, lexeme))
      (further : Reads (offset + lexeme.length) rest scan) :
      Reads offset (lexeme ++ rest) (scan.push kind lexeme offset)

/-- Characters of a lexeme that has been taken are passed over. -/
theorem readFrom_covered {covered offset : Nat} {text : List Char}
    (inside : covered ≤ text.length) :
    readFrom covered offset text = readFrom 0 (offset + covered) (text.drop covered) := by
  induction covered generalizing offset text with
  | zero => rfl
  | succ covered inductionHypothesis =>
    cases text with
    | nil => simp at inside
    | cons c rest =>
      have passed : readFrom (covered + 1) offset (c :: rest) =
          readFrom covered (offset + 1) rest := rfl
      rw [passed, inductionHypothesis (by simpa using inside), List.drop_succ_cons]
      congr 1
      omega

/-- A lexeme is taken and scanning goes on behind it. -/
theorem readFrom_lexeme {offset : Nat} {kind : Kind} {lexeme rest : List Char}
    (taken : firstLexeme? (lexeme ++ rest) = some (kind, lexeme)) :
    readFrom 0 offset (lexeme ++ rest) =
      (readFrom 0 (offset + lexeme.length) rest).push kind lexeme offset := by
  have nonempty := (Kind.lexeme?_prefix (firstLexeme?_eq_some_iff.mp taken).1).1
  obtain ⟨c, others, rfl⟩ := List.exists_cons_of_ne_nil nonempty
  rw [List.cons_append] at taken ⊢
  have covered : readFrom others.length (offset + 1) (others ++ rest) =
      readFrom 0 (offset + (c :: others).length) rest := by
    rw [readFrom_covered (by simp), List.drop_left, List.length_cons]
    congr 1
    omega
  rw [← covered, readFrom, taken]
  rfl

/-- Every text is scanned lexeme by lexeme. -/
theorem reads_readFrom (offset : Nat) (text : List Char) :
    Reads offset text (readFrom 0 offset text) := by
  -- A lexeme is not empty, so what stands behind it is shorter than the text.
  induction isSize : text.length using Nat.strongRecOn generalizing offset text with
  | ind size inductionHypothesis =>
    cases text with
    | nil => exact .done
    | cons c rest =>
      cases taken : firstLexeme? (c :: rest) with
      | none =>
        rw [readFrom, taken]
        exact .stuck taken
      | some found =>
        obtain ⟨kind, lexeme⟩ := found
        obtain ⟨nonempty, others, same⟩ :=
          Kind.lexeme?_prefix (firstLexeme?_eq_some_iff.mp taken).1
        have shorter : others.length < size := by
          have positive := List.length_pos_iff.mpr nonempty
          rw [← isSize, same, List.length_append]
          omega
        have further := inductionHypothesis others.length shorter
          (offset + lexeme.length) others rfl
        rw [same] at taken ⊢
        rw [readFrom_lexeme taken]
        exact .lexeme taken further

/-- A text is scanned in one way only. -/
theorem Reads.eq {offset : Nat} {text : List Char} {scan : Scan} (reads : Reads offset text scan) :
    scan = readFrom 0 offset text := by
  induction reads with
  | done => rfl
  | stuck nothing => rw [readFrom, nothing]
  | lexeme taken further inductionHypothesis => rw [readFrom_lexeme taken, ← inductionHypothesis]

/-- A text that is one lexeme is scanned as that lexeme. -/
theorem Reads.single {offset : Nat} {kind : Kind} {text : List Char}
    (taken : firstLexeme? text = some (kind, text)) :
    Reads offset text (push kind text offset ⟨[], none⟩) := by
  have ends : text ++ [] = text := List.append_nil text
  have reads : Reads offset (text ++ []) (push kind text offset ⟨[], none⟩) :=
    .lexeme (by rwa [ends]) .done
  rwa [ends] at reads

end Scan

/-- A token whose text stands at its offset is the part of the text between its ends. -/
theorem Token.slice_of_append {token : Token} {front : List Char} (back : List Char)
    (offset : token.offset = front.length) :
    0 ≤ token.offset ∧ token.stop ≤ (front ++ (token.text.toList ++ back)).length ∧
      ((front ++ (token.text.toList ++ back)).drop token.offset.toNat).take token.text.length =
        token.text.toList := by
  refine ⟨by omega, ?_, ?_⟩
  · simp only [Token.stop, List.length_append, String.length_toList]
    omega
  · rw [offset, Int.toNat_natCast, List.drop_left, ← String.length_toList, List.take_left]

/-- The token is a lexeme that is taken where its offset says. -/
structure Token.TakenFrom (text : List Char) (token : Token) (front back : List Char) : Prop where
  text : text = front ++ (token.text.toList ++ back)
  offset : token.offset = front.length
  taken : firstLexeme? (token.text.toList ++ back) = some (token.kind, token.text.toList)

namespace Scan.Reads

open Text

variable {offset : Nat} {text front : List Char} {scan : Scan}

/-- Every token of a scan is a lexeme of the text. -/
theorem takenFrom (reads : Reads offset text scan) (atOffset : front.length = offset) :
    ∀ token ∈ scan.tokens, ∃ before back, token.TakenFrom (front ++ text) before back := by
  induction reads generalizing front with
  | done => simp
  | stuck nothing => simp
  | @lexeme offset kind lexeme rest scan taken further inductionHypothesis =>
    intro token isToken
    have behind : (front ++ lexeme).length = offset + lexeme.length := by
      rw [List.length_append, atOffset]
    have later := inductionHypothesis behind
    rw [List.append_assoc] at later
    rcases mem_push_iff.mp isToken with ⟨_, rfl⟩ | isLater
    · refine ⟨front, rest, ?_, ?_, ?_⟩ <;> simp [String.toList_ofList, taken, atOffset]
    · exact later token isLater

/-- Nothing but blanks stands in front of the first token, and the other tokens are scanned
behind it, up to where the scan ends. -/
theorem first {token : Token} {others : List Token} (reads : Reads offset text scan)
    (isFirst : scan.tokens = token :: others) :
    ∃ blanks rest next later, (∀ c ∈ blanks, isBlank c = true) ∧
      text = blanks ++ (token.text.toList ++ rest) ∧
      firstLexeme? (token.text.toList ++ rest) = some (token.kind, token.text.toList) ∧
      Reads next rest later ∧ later.tokens = others ∧ later.failure = scan.failure := by
  induction reads with
  | done => cases isFirst
  | stuck nothing => cases isFirst
  | @lexeme offset kind lexeme rest scan taken further inductionHypothesis =>
    rw [push_failure]
    unfold push at isFirst
    split at isFirst
    · next isBlankKind =>
      obtain ⟨blanks, after, next, later, allBlank, rfl, found, others⟩ :=
        inductionHypothesis isFirst
      rw [isBlankKind] at taken
      obtain ⟨_, lexemeBlank, _⟩ :=
        Lexeme.run_eq_some_iff.mp (firstLexeme?_eq_some_iff.mp taken).1
      refine ⟨lexeme ++ blanks, after, next, later, ?_, ?_, found, others⟩
      · exact List.forall_mem_append.mpr ⟨lexemeBlank, allBlank⟩
      · rw [List.append_assoc]
    · cases isFirst
      refine ⟨[], rest, _, scan, by simp, ?_, ?_, further, rfl, rfl⟩ <;>
        simp [String.toList_ofList, taken]

/-- In a text that starts with no blank, the first token is what it starts with. -/
theorem first_of_not_blank {c : Char} {behind : List Char} {token : Token} {others : List Token}
    (reads : Reads offset (c :: behind) scan) (notBlank : isBlank c = false)
    (isFirst : scan.tokens = token :: others) :
    ∃ rest next later, c :: behind = token.text.toList ++ rest ∧
      firstLexeme? (token.text.toList ++ rest) = some (token.kind, token.text.toList) ∧
      Reads next rest later ∧ later.tokens = others ∧ later.failure = scan.failure := by
  obtain ⟨blanks, rest, next, later, allBlank, isText, further⟩ := reads.first isFirst
  cases blanks with
  | nil => exact ⟨rest, next, later, isText, further⟩
  | cons first _ =>
    have isBlankFirst := allBlank first List.mem_cons_self
    rw [← (List.cons.inj isText).1, notBlank] at isBlankFirst
    cases isBlankFirst

/-- Where a scan gets stuck, no lexeme is found. -/
theorem stuckAt (reads : Reads offset text scan) (atOffset : front.length = offset) :
    ∀ error ∈ scan.failure, ∃ before back, front ++ text = before ++ error.char :: back ∧
      error.offset = before.length ∧ firstLexeme? (error.char :: back) = none := by
  induction reads generalizing front with
  | done => simp
  | @stuck offset c rest nothing =>
    intro error isError
    cases isError
    exact ⟨front, rest, rfl, atOffset.symm, nothing⟩
  | @lexeme offset kind lexeme rest scan taken further inductionHypothesis =>
    intro error isError
    have behind : (front ++ lexeme).length = offset + lexeme.length := by
      rw [List.length_append, atOffset]
    have later := inductionHypothesis behind
    rw [List.append_assoc] at later
    rw [push_failure] at isError
    exact later error isError

end Scan.Reads

section Tokenize

variable {text : String} {tokens : List Token}

/-- The tokens of a text are those of a scan of all of it. -/
theorem reads_of_tokenize (scanned : tokenize text = .ok tokens) :
    ∃ scan, Scan.Reads 0 text.toList scan ∧ scan.failure = none ∧ scan.tokens = tokens := by
  refine ⟨_, Scan.reads_readFrom 0 text.toList, ?_⟩
  simp only [tokenize] at scanned
  split at scanned
  · next noFailure =>
    cases scanned
    exact ⟨noFailure, rfl⟩
  · cases scanned

/-- What a text is scanned as. -/
theorem tokenize_of_reads {scan : Scan} (reads : Scan.Reads 0 text.toList scan) :
    tokenize text = match scan.failure with
      | none => .ok scan.tokens
      | some error => .error error := by
  have same : Scan.read text = scan := reads.eq.symm
  subst same
  rfl

/-- Every token of a text is a lexeme of the text. -/
theorem takenFrom_of_tokenize (scanned : tokenize text = .ok tokens) :
    ∀ token ∈ tokens, ∃ before back, token.TakenFrom text.toList before back := by
  obtain ⟨scan, reads, _, rfl⟩ := reads_of_tokenize scanned
  have all : ∀ token ∈ scan.tokens,
      ∃ before back, token.TakenFrom ([] ++ text.toList) before back :=
    reads.takenFrom rfl
  exact all

/-- A text without tokens has a character where no lexeme is found. -/
theorem stuckAt_of_tokenize {error : LexicalError} (stuck : tokenize text = .error error) :
    ∃ before back, text.toList = before ++ error.char :: back ∧ error.offset = before.length ∧
      firstLexeme? (error.char :: back) = none := by
  have all : ∀ error ∈ (Scan.read text).failure, ∃ before back,
      [] ++ text.toList = before ++ error.char :: back ∧ error.offset = before.length ∧
        firstLexeme? (error.char :: back) = none :=
    (Scan.reads_readFrom 0 text.toList).stuckAt rfl
  simp only [tokenize] at stuck
  split at stuck
  · cases stuck
  · next isError =>
    cases stuck
    exact all error isError

end Tokenize

end UrlFilter
