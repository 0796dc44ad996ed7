import UrlFilter.Proofs.Token.Apart
import UrlFilter.Proofs.Token.Scan
import UrlFilter.Proofs.Token.Written

/-!
# Texts joined by a connector

A text, a connector and another text are scanned one after the other: no lexeme of the first
text goes on with the connector or looks behind it, and the second text is scanned as it is by
itself, only further to the right.
-/

namespace UrlFilter

open Text Lexeme

/-- The token, further to the right. -/
def Token.shift (distance : Nat) (token : Token) : Token :=
  { token with offset := token.offset + distance }

/-- The error, further to the right. -/
def LexicalError.shift (distance : Nat) (error : LexicalError) : LexicalError :=
  { error with offset := error.offset + distance }

/-- The token is no phrase that a slash or a single quote opens. -/
def Token.IsClosed (token : Token) : Prop :=
  token.kind = .phrase → token.text.toList.head?.any opensDelimited = false

/-- The characters at which a text may be cut in two, with the kinds of their tokens. -/
def connectors : List (Char × Kind) :=
  [('&', .and), ('^', .or), (')', .closeGroup)]

section Connectors

variable {connector : Char} {kind : Kind} (isConnector : (connector, kind) ∈ connectors)

include isConnector

/-- A connector belongs to no other lexeme. -/
theorem connector_apart :
    RegexFlag.isLetter connector = false ∧
      ∀ other : Kind, other ≠ .regex → other ≠ .quoted → other.mayGoOn connector = false := by
  simp only [connectors, List.mem_cons, List.not_mem_nil, or_false, Prod.mk.injEq] at isConnector
  rcases isConnector with ⟨rfl, rfl⟩ | ⟨rfl, rfl⟩ | ⟨rfl, rfl⟩ <;>
    exact ⟨by decide, fun other => by cases other <;> decide⟩

/-- A connector is a token whatever follows. -/
theorem firstLexeme?_connector (rest : List Char) :
    firstLexeme? ([connector] ++ rest) = some (kind, [connector]) ∧ kind ≠ .blank := by
  simp only [connectors, List.mem_cons, List.not_mem_nil, or_false, Prod.mk.injEq] at isConnector
  rcases isConnector with ⟨rfl, rfl⟩ | ⟨rfl, rfl⟩ | ⟨rfl, rfl⟩
  · exact ⟨firstLexeme?_char rfl (by decide), by decide⟩
  · exact ⟨firstLexeme?_char rfl (by decide), by decide⟩
  · exact ⟨firstLexeme?_char rfl (by decide), by decide⟩

/-- What is taken from a text is taken in front of a connector too. -/
theorem firstLexeme?_before_connector {other : Kind} {lexeme rest : List Char}
    (taken : firstLexeme? (lexeme ++ rest) = some (other, lexeme))
    (closed : other = .phrase → lexeme.head?.any opensDelimited = false) (back : List Char) :
    firstLexeme? (lexeme ++ (rest ++ connector :: back)) = some (other, lexeme) := by
  obtain ⟨notFlag, apart⟩ := connector_apart isConnector
  have nonempty := (Kind.lexeme?_prefix (firstLexeme?_eq_some_iff.mp taken).1).1
  obtain ⟨first, others, rfl⟩ := List.exists_cons_of_ne_nil nonempty
  rw [← List.append_assoc]
  exact firstLexeme?_apart taken closed notFlag fun tried _ notRegex notQuoted =>
    Kind.lexeme?_apart (apart tried notRegex notQuoted) (List.cons_ne_nil _ _)

end Connectors

namespace Scan

/-- The scan, further to the right. -/
def shift (distance : Nat) (scan : Scan) : Scan :=
  ⟨scan.tokens.map (Token.shift distance), scan.failure.map (LexicalError.shift distance)⟩

/-- The tokens of a scan and what is scanned behind them. -/
def followedBy (scan later : Scan) : Scan :=
  ⟨scan.tokens ++ later.tokens, later.failure⟩

/-- A token that is put in front of a scan is moved with it. -/
theorem shift_push (kind : Kind) (lexeme : List Char) (offset distance : Nat) (scan : Scan) :
    (scan.push kind lexeme offset).shift distance =
      (scan.shift distance).push kind lexeme (offset + distance) := by
  unfold push
  split
  · rfl
  · simp [shift, Token.shift]

/-- A token may be put in front of a scan before or after another one follows it. -/
theorem push_followedBy (kind : Kind) (lexeme : List Char) (offset : Nat) (scan later : Scan) :
    (scan.push kind lexeme offset).followedBy later =
      (scan.followedBy later).push kind lexeme offset := by
  unfold push
  split <;> rfl

namespace Reads

variable {offset : Nat} {text : List Char} {scan : Scan}

/-- Where a text starts does not matter to its scan. -/
theorem shift (reads : Reads offset text scan) (distance : Nat) :
    Reads (offset + distance) text (scan.shift distance) := by
  induction reads with
  | done => exact .done
  | stuck nothing => exact .stuck nothing
  | @lexeme offset kind lexeme rest scan taken further inductionHypothesis =>
    rw [shift_push]
    refine .lexeme taken ?_
    rwa [Nat.add_right_comm] at inductionHypothesis

/-- The tokens of a text are taken in front of a connector too, and scanning goes on with the
connector. -/
theorem connect {connector : Char} {kind : Kind} (isConnector : (connector, kind) ∈ connectors)
    (reads : Reads offset text scan) (noFailure : scan.failure = none)
    (closed : ∀ token ∈ scan.tokens, token.IsClosed) {back : List Char} {later : Scan}
    (further : Reads (offset + text.length) (connector :: back) later) :
    Reads offset (text ++ connector :: back) (scan.followedBy later) := by
  induction reads with
  | done => exact further
  | stuck nothing => cases noFailure
  | @lexeme offset kind lexeme rest scan taken _ inductionHypothesis =>
    rw [push_failure] at noFailure
    have notOpen : kind = .phrase → lexeme.head?.any opensDelimited = false := by
      rintro rfl
      have isToken : (⟨.phrase, String.ofList lexeme, offset⟩ : Token) ∈
          (scan.push .phrase lexeme offset).tokens :=
        mem_push_iff.mpr (.inl ⟨by decide, rfl⟩)
      have closedToken := closed _ isToken rfl
      rwa [String.toList_ofList] at closedToken
    have closedLater : ∀ token ∈ scan.tokens, token.IsClosed :=
      fun token isToken => closed token (mem_push_iff.mpr (.inr isToken))
    rw [List.length_append, ← Nat.add_assoc] at further
    rw [push_followedBy, List.append_assoc]
    exact .lexeme (firstLexeme?_before_connector isConnector taken notOpen back)
      (inductionHypothesis noFailure closedLater further)

/-- Texts joined by a connector are scanned one after the other. -/
theorem joined {connector : Char} {kind : Kind} (isConnector : (connector, kind) ∈ connectors)
    (reads : Reads 0 text scan) (noFailure : scan.failure = none)
    (closed : ∀ token ∈ scan.tokens, token.IsClosed) {other : List Char} {later : Scan}
    (further : Reads 0 other later) :
    Reads 0 (text ++ connector :: other) (scan.followedBy
      ((later.shift (text.length + 1)).push kind [connector] text.length)) := by
  obtain ⟨taken, _⟩ := firstLexeme?_connector isConnector other
  have behind := further.shift (text.length + 1)
  refine reads.connect isConnector noFailure closed ?_
  rw [Nat.zero_add] at behind ⊢
  exact .lexeme taken behind

end Reads

end Scan

/-- The tokens of texts that are joined by a connector. -/
theorem tokenize_of_joined {text : String} {left right : List Char} {connector : Char} {kind : Kind}
    (characters : text.toList = left ++ connector :: right)
    (isConnector : (connector, kind) ∈ connectors) {scan later : Scan}
    (reads : Scan.Reads 0 left scan) (noFailure : scan.failure = none)
    (closed : ∀ token ∈ scan.tokens, token.IsClosed) (further : Scan.Reads 0 right later) :
    tokenize text = match later.failure with
      | none => .ok (scan.tokens ++ ⟨kind, connector.toString, left.length⟩ ::
          later.tokens.map (Token.shift (left.length + 1)))
      | some error => .error (error.shift (left.length + 1)) := by
  have notBlank := (firstLexeme?_connector isConnector []).2
  have joined := reads.joined isConnector noFailure closed further
  rw [← characters] at joined
  rw [tokenize_of_reads joined, Scan.followedBy, Scan.push_failure]
  cases isStuck : later.failure <;> simp [Scan.shift, Scan.push, notBlank, isStuck]

/-- Scanning distributes over connectors: behind a text that has tokens, none of which is left
open, stands the token of the connector, and behind it the other text as it is by itself. -/
theorem tokenize_connected {text : String} {tokens : List Token}
    (scanned : tokenize text = .ok tokens) (closed : ∀ token ∈ tokens, token.IsClosed)
    {connector : Char} {kind : Kind} (isConnector : (connector, kind) ∈ connectors)
    (other : String) :
    (∀ others, tokenize other = .ok others →
      tokenize (text ++ connector.toString ++ other) =
        .ok (tokens ++ ⟨kind, connector.toString, text.length⟩ ::
          others.map (Token.shift (text.length + 1)))) ∧
    ∀ error, tokenize other = .error error →
      tokenize (text ++ connector.toString ++ other) = .error (error.shift (text.length + 1)) := by
  obtain ⟨scan, reads, noFailure, rfl⟩ := reads_of_tokenize scanned
  obtain ⟨later, further⟩ : ∃ later, Scan.Reads 0 other.toList later :=
    ⟨_, Scan.reads_readFrom 0 other.toList⟩
  have characters : (text ++ connector.toString ++ other).toList =
      text.toList ++ connector :: other.toList := by
    simp
  have joined := tokenize_of_joined characters isConnector reads noFailure closed further
  rw [joined, tokenize_of_reads further, String.length_toList]
  cases later.failure with
  | none =>
    refine ⟨?_, fun error stuck => by cases stuck⟩
    rintro _ ⟨⟩
    rfl
  | some stuckAt =>
    refine ⟨fun others stuck => (by cases stuck), ?_⟩
    rintro _ ⟨⟩
    rfl

/-- The tokens of a phrase that ends in a digit. -/
def digitTokens : List Token :=
  [⟨.word, "n", 0⟩, ⟨.equal, "=", 1⟩, ⟨.phrase, "a 0", 2⟩]

/-- A digit in front of the connector does not run into the one behind it, and a failure behind it
is moved. -/
theorem tokenize_connected_digitTokens :
    tokenize "n=a 0" = .ok digitTokens ∧ (∀ token ∈ digitTokens, token.IsClosed) ∧
      ('^', .or) ∈ connectors ∧
      tokenize "n=a 0^7" = .ok (digitTokens ++ [⟨.or, "^", 5⟩, ⟨.number, "7", 6⟩]) ∧
      tokenize "n=a 0^k~" = .error ⟨7, '~'⟩ := by
  have scanned : tokenize "n=a 0" = .ok digitTokens := by rfl
  have closed : ∀ token ∈ digitTokens, token.IsClosed := by
    simp [digitTokens, Token.IsClosed, opensDelimited]
  have isConnector : ('^', Kind.or) ∈ connectors := by simp [connectors]
  exact ⟨scanned, closed, isConnector,
    (tokenize_connected scanned closed isConnector "7").1 [⟨.number, "7", 0⟩] rfl,
    (tokenize_connected scanned closed isConnector "k~").2 ⟨1, '~'⟩ rfl⟩

end UrlFilter
