import UrlFilter.Text.Encoding
import UrlFilter.Text.Percent

/-!
# Decoding undoes encoding

The bytes of a character are read one by one until the last of them completes it, and nothing
is pending then. So a character can be written in any of its ways wherever it stands, and the
text is read back.
-/

namespace UrlFilter.Text

open Percent

namespace Utf8

/-- The byte continues a character. -/
def IsContinuation (byte : Nat) : Prop :=
  0x80 ≤ byte ∧ byte ≤ 0xBF

/-- An ASCII byte is a character. -/
theorem characters_ascii {byte : Nat} (ascii : byte < 0x80) (rest : List Piece) :
    characters none (.byte byte :: rest) = Char.ofNat byte :: characters none rest := by
  simp [characters, read, readFirst, ascii]

/-- A first byte of several leaves its character pending. -/
theorem characters_first {byte : Nat} {pending : Pending} (high : 0x80 ≤ byte)
    (first : Pending.ofFirst? byte = some pending) (rest : List Piece) :
    characters none (.byte byte :: rest) = characters (some pending) rest := by
  have notAscii : ¬ byte < 0x80 := by omega
  simp [characters, read, readFirst, notAscii, first]

/-- A byte that is not the last one adds its bits to the pending character. -/
theorem characters_middle {owed least greatest bits byte : Nat} (lower : least ≤ byte)
    (upper : byte ≤ greatest) (rest : List Piece) :
    characters (some ⟨owed + 2, least, greatest, bits⟩) (.byte byte :: rest) =
      characters (some ⟨owed + 1, 0x80, 0xBF, bits * 64 + byte % 64⟩) rest := by
  have more : ¬ owed + 2 ≤ 1 := by omega
  simp [characters, read, lower, upper, more]

/-- The last byte completes the pending character. -/
theorem characters_last {least greatest bits byte : Nat} (lower : least ≤ byte)
    (upper : byte ≤ greatest) (rest : List Piece) :
    characters (some ⟨1, least, greatest, bits⟩) (.byte byte :: rest) =
      Char.ofNat (bits * 64 + byte % 64) :: characters none rest := by
  simp [characters, read, lower, upper]

/-- The first byte of two. -/
theorem ofFirst?_two {byte : Nat} (lower : 0xC2 ≤ byte) (upper : byte ≤ 0xDF) :
    Pending.ofFirst? byte = some ⟨1, 0x80, 0xBF, byte - 0xC0⟩ := by
  have notLess : ¬ byte < 0xC2 := by omega
  have less : byte < 0xE0 := by omega
  simp [Pending.ofFirst?, notLess, less]

/-- The first byte of three admits every second byte but those of overlong forms and of
surrogates. -/
theorem ofFirst?_three {byte second : Nat} (lower : 0xE0 ≤ byte) (upper : byte ≤ 0xEF)
    (continues : IsContinuation second) (notOverlong : byte = 0xE0 → 0xA0 ≤ second)
    (noSurrogate : byte = 0xED → second ≤ 0x9F) :
    ∃ least greatest, Pending.ofFirst? byte = some ⟨2, least, greatest, byte - 0xE0⟩ ∧
      least ≤ second ∧ second ≤ greatest := by
  obtain ⟨secondLower, secondUpper⟩ := continues
  have notLess : ¬ byte < 0xC2 := by omega
  have notTwo : ¬ byte < 0xE0 := by omega
  by_cases isLeast : byte = 0xE0
  · exact ⟨0xA0, 0xBF, by simp [Pending.ofFirst?, isLeast], notOverlong isLeast, secondUpper⟩
  by_cases isSurrogate : byte = 0xED
  · exact ⟨0x80, 0x9F, by simp [Pending.ofFirst?, isSurrogate], secondLower,
      noSurrogate isSurrogate⟩
  · have less : byte < 0xF0 := by omega
    exact ⟨0x80, 0xBF, by simp [Pending.ofFirst?, notLess, notTwo, isLeast, isSurrogate, less],
      secondLower, secondUpper⟩

/-- The first byte of four admits every second byte but those of overlong forms and of values
past the last code point. -/
theorem ofFirst?_four {byte second : Nat} (lower : 0xF0 ≤ byte) (upper : byte ≤ 0xF4)
    (continues : IsContinuation second) (notOverlong : byte = 0xF0 → 0x90 ≤ second)
    (notPast : byte = 0xF4 → second ≤ 0x8F) :
    ∃ least greatest, Pending.ofFirst? byte = some ⟨3, least, greatest, byte - 0xF0⟩ ∧
      least ≤ second ∧ second ≤ greatest := by
  obtain ⟨secondLower, secondUpper⟩ := continues
  have notLess : ¬ byte < 0xC2 := by omega
  have notTwo : ¬ byte < 0xE0 := by omega
  have notThree : byte ≠ 0xE0 ∧ byte ≠ 0xED ∧ ¬ byte < 0xF0 := by omega
  by_cases isLeast : byte = 0xF0
  · exact ⟨0x90, 0xBF, by simp [Pending.ofFirst?, isLeast], notOverlong isLeast, secondUpper⟩
  by_cases isGreatest : byte = 0xF4
  · exact ⟨0x80, 0x8F, by simp [Pending.ofFirst?, isGreatest], secondLower, notPast isGreatest⟩
  · have less : byte < 0xF4 := by omega
    exact ⟨0x80, 0xBF,
      by simp [Pending.ofFirst?, notLess, notTwo, notThree, isLeast, less],
      secondLower, secondUpper⟩

/-- The bytes of a character as numbers: the first one says how many follow it, and each of
these carries six bits. -/
theorem toNat_utf8EncodeChar (c : Char) :
    (String.utf8EncodeChar c).map UInt8.toNat =
      if c.toNat ≤ 0x7F then [c.toNat]
      else if c.toNat ≤ 0x7FF then [0xC0 + c.toNat / 64, 0x80 + c.toNat % 64]
      else if c.toNat ≤ 0xFFFF then
        [0xE0 + c.toNat / 4096, 0x80 + c.toNat / 64 % 64, 0x80 + c.toNat % 64]
      else
        [0xF0 + c.toNat / 262144, 0x80 + c.toNat / 4096 % 64, 0x80 + c.toNat / 64 % 64,
          0x80 + c.toNat % 64] := by
  have valid : c.toNat < 0xD800 ∨ 0xDFFF < c.toNat ∧ c.toNat < 0x110000 := c.valid
  have isNumber : c.val.toNat = c.toNat := rfl
  simp only [String.utf8EncodeChar, isNumber]
  generalize c.toNat = number at valid
  split
  · simp only [List.map_cons, List.map_nil, UInt8.toNat_ofNat', List.cons.injEq, and_true]
    omega
  split
  · simp only [List.map_cons, List.map_nil, UInt8.toNat_ofNat', List.cons.injEq, and_true]
    omega
  split
  · simp only [List.map_cons, List.map_nil, UInt8.toNat_ofNat', List.cons.injEq, and_true]
    omega
  · simp only [List.map_cons, List.map_nil, UInt8.toNat_ofNat', List.cons.injEq, and_true]
    omega

/-- The bytes of a character are read as the character. -/
theorem characters_utf8EncodeChar (c : Char) (rest : List Piece) :
    characters none (((String.utf8EncodeChar c).map UInt8.toNat).map .byte ++ rest) =
      c :: characters none rest := by
  have valid : c.toNat < 0xD800 ∨ 0xDFFF < c.toNat ∧ c.toNat < 0x110000 := c.valid
  have isCharacter : ∀ {bits}, bits = c.toNat → Char.ofNat bits = c := by
    rintro _ rfl
    exact Char.ofNat_toNat c
  have continues : ∀ bits, IsContinuation (0x80 + bits % 64) := by
    intro bits
    unfold IsContinuation
    omega
  rw [toNat_utf8EncodeChar]
  generalize c.toNat = number at valid isCharacter
  split
  · next one =>
    have ascii : number < 0x80 := by omega
    simp only [List.map_cons, List.map_nil, List.cons_append, List.nil_append]
    rw [characters_ascii ascii, isCharacter rfl]
  split
  · next two =>
    have first := @ofFirst?_two (0xC0 + number / 64) (by omega) (by omega)
    simp only [List.map_cons, List.map_nil, List.cons_append, List.nil_append]
    rw [characters_first (by omega) first,
      characters_last (continues number).1 (continues number).2, isCharacter (by omega)]
  split
  · next three =>
    obtain ⟨least, greatest, first, lower, upper⟩ :=
      @ofFirst?_three (0xE0 + number / 4096) _ (by omega) (by omega)
        (continues (number / 64)) (by omega) (by omega)
    simp only [List.map_cons, List.map_nil, List.cons_append, List.nil_append]
    rw [characters_first (by omega) first, characters_middle lower upper,
      characters_last (continues number).1 (continues number).2, isCharacter (by omega)]
  · next four =>
    obtain ⟨least, greatest, first, lower, upper⟩ :=
      @ofFirst?_four (0xF0 + number / 262144) _ (by omega) (by omega)
        (continues (number / 4096)) (by omega) (by omega)
    simp only [List.map_cons, List.map_nil, List.cons_append, List.nil_append]
    rw [characters_first (by omega) first, characters_middle lower upper,
      characters_middle (continues (number / 64)).1 (continues (number / 64)).2,
      characters_last (continues number).1 (continues number).2, isCharacter (by omega)]

end Utf8

namespace Percent

/-- A hexadecimal digit has its value in either case. -/
theorem hexValue?_of_isHexDigit {number : Nat} {c : Char} (small : number < 16)
    (isDigit : IsHexDigit number c) : hexValue? c = some number := by
  have lowerCase : ∀ number < 16, hexValue? (Nat.digitChar number) = some number := by decide
  have upperCase : ∀ number < 16, hexValue? (Nat.digitChar number).toUpper = some number := by
    decide
  rcases isDigit with rfl | rfl
  · exact lowerCase number small
  · exact upperCase number small

/-- Escapes are read as the bytes that they write. -/
theorem pieces_escapes {bytes : List UInt8} {text : List Char} (escapes : Escapes bytes text)
    (rest : List Char) :
    pieces (text ++ rest) = (bytes.map UInt8.toNat).map .byte ++ pieces rest := by
  induction escapes with
  | nil => rfl
  | @cons byte bytes high low text isHigh isLow _ inductionHypothesis =>
    have small := byte.toNat_lt
    have value : escapeValue? high low = some byte.toNat := by
      rw [escapeValue?, hexValue?_of_isHexDigit (by omega) isHigh,
        hexValue?_of_isHexDigit (by omega) isLow]
      simp only [Option.some.injEq]
      omega
    simp only [List.cons_append, pieces, value, inductionHypothesis, List.map_cons]

/-- A character other than `%` is a piece of its own. -/
theorem pieces_plain {c : Char} (notPercent : c ≠ '%') (rest : List Char) :
    pieces (c :: rest) = Piece.ofChar c :: pieces rest := by
  cases rest with
  | nil => simp [pieces]
  | cons next rest =>
    cases rest with
    | nil => simp [pieces]
    | cons last rest => simp [pieces, notPercent]

/-- A character that stands for itself is read as itself, wherever no character is pending. -/
theorem characters_ofChar (c : Char) (rest : List Piece) :
    characters none (Piece.ofChar c :: rest) = c :: characters none rest := by
  unfold Piece.ofChar
  split
  · next ascii => rw [Utf8.characters_ascii ascii, Char.ofNat_toNat]
  · rfl

/-- A character is read back, however it is written and whatever follows it. -/
theorem EncodesChar.characters_pieces {c : Char} {text : List Char} (encodes : EncodesChar c text)
    (rest : List Char) :
    characters none (pieces (text ++ rest)) = c :: characters none (pieces rest) := by
  cases encodes with
  | plain notPercent =>
    rw [List.singleton_append, pieces_plain notPercent, characters_ofChar]
  | escaped escapes => rw [pieces_escapes escapes, Utf8.characters_utf8EncodeChar]

/-- A text is read back, however it is written. -/
theorem Encodes.decode {text encoded : List Char} (encodes : Encodes text encoded) :
    decode encoded = text := by
  induction encodes with
  | nil => rfl
  | cons first _ inductionHypothesis =>
    rw [Percent.decode, first.characters_pieces]
    exact congrArg _ inductionHypothesis

/-- No escape has a separator in it. -/
theorem Escapes.no_separator {bytes : List UInt8} {text : List Char}
    (escapes : Escapes bytes text) : '&' ∉ text := by
  have notDigit : ∀ {number : Nat} {c : Char}, number < 16 → IsHexDigit number c → '&' ≠ c := by
    rintro number _ small isDigit rfl
    have noValue : hexValue? '&' = none := by decide
    rw [hexValue?_of_isHexDigit small isDigit] at noValue
    cases noValue
  induction escapes with
  | nil => exact List.not_mem_nil
  | @cons byte bytes high low text isHigh isLow _ inductionHypothesis =>
    have small := byte.toNat_lt
    simp only [List.mem_cons, not_or]
    exact ⟨by decide, notDigit (by omega) isHigh, notDigit (by omega) isLow, inductionHypothesis⟩

/-- No encoded text has a separator in it. -/
theorem Encodes.no_separator {text encoded : List Char} (encodes : Encodes text encoded) :
    '&' ∉ encoded := by
  induction encodes with
  | nil => exact List.not_mem_nil
  | cons first _ inductionHypothesis =>
    rw [List.mem_append, not_or]
    refine ⟨?_, inductionHypothesis⟩
    cases first with
    | plain _ notSeparator => simpa using notSeparator.symm
    | escaped escapes => exact escapes.no_separator

end Percent

end UrlFilter.Text
