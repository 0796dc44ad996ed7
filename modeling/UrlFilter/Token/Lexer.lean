import UrlFilter.Token.Lexeme

/-!
# From text to tokens

At each place the first kind in order of priority that fits is taken; no kind is
searched for further ahead. Blanks are passed over.
-/

namespace UrlFilter

/-- No kind of token fits at the offset, where the character stands. -/
structure LexicalError where
  offset : Nat
  char : Char
deriving DecidableEq, Repr

/-- What reading a text yields: the tokens up to its end or up to a place where none
fits. -/
structure Scan where
  tokens : List Token
  failure : Option LexicalError
deriving DecidableEq, Repr

namespace Scan

/-- The scan with one more token in front; blanks add none. -/
def push (kind : Kind) (lexeme : List Char) (offset : Nat) (scan : Scan) : Scan :=
  if kind = .blank then scan
  else { scan with tokens := ⟨kind, String.ofList lexeme, offset⟩ :: scan.tokens }

/-- Scans the text from an offset on. The first `covered` characters belong to a lexeme
that has been taken already. -/
def readFrom : (covered offset : Nat) → List Char → Scan
  | _, _, [] => ⟨[], none⟩
  | covered + 1, offset, _ :: rest => readFrom covered (offset + 1) rest
  | 0, offset, c :: rest =>
    match firstLexeme? (c :: rest) with
    | none => ⟨[], some ⟨offset, c⟩⟩
    | some (kind, lexeme) =>
      (readFrom (lexeme.length - 1) (offset + 1) rest).push kind lexeme offset

/-- Scans a text. -/
def read (text : String) : Scan :=
  readFrom 0 0 text.toList

end Scan

/-- The tokens of a text, in order and without blanks. -/
def tokenize (text : String) : Except LexicalError (List Token) :=
  let scan := Scan.read text
  match scan.failure with
  | none => .ok scan.tokens
  | some error => .error error

end UrlFilter
