import Mathlib.Data.List.Induction
import UrlFilter.Proofs.Failure
import UrlFilter.Proofs.Parser.Clause
import UrlFilter.Proofs.Token.Alone
import UrlFilter.Proofs.Token.Written

/-!
# Integers as tokens

A number starts with no zero that digits follow, so it is written as the integer that it is read
as is written in decimal. The exceptions are the digits of other scripts and the sign of a zero.
-/

namespace UrlFilter

open Text Lexeme Numeral

namespace Text

/-- The ASCII digit with the value of a decimal digit. Any other character is kept. -/
def asciiDigit (c : Char) : Char :=
  (digitValue? c).elim c Nat.digitChar

/-- The ASCII digit for a character is the one of its value. -/
theorem asciiDigit_of_value {c : Char} {value : Nat} (found : digitValue? c = some value) :
    asciiDigit c = value.digitChar := by
  rw [asciiDigit, found]
  rfl

end Text

namespace Numeral

/-- One digit has one value. -/
theorem digitValues_singleton {digit : Char} {value : Nat}
    (found : digitValue? digit = some value) : digitValues [digit] = [value] := by
  simp [digitValues, found]

/-- Digits that start with one to nine denote a positive number, and they are the numeral of the
number in their script. -/
theorem toDigits_of_leading {first : Char} {digits : List Char}
    (leading : '1' ≤ first ∧ first ≤ '9')
    (all : ∀ digit ∈ digits, isDecimalDigit digit = true) :
    0 < ofDigits (digitValues (first :: digits)) ∧
      Nat.toDigits 10 (ofDigits (digitValues (first :: digits))) =
        (first :: digits).map asciiDigit := by
  -- The last digit of the numeral is split off, so the induction takes digits away at the end.
  induction digits using List.reverseRecOn with
  | nil =>
    have lower : 49 ≤ first.toNat := leading.1
    have upper : first.toNat ≤ 57 := leading.2
    have isDigit : first.isDigit = true := by
      have isWhole : IsWhole [first] := .inr ⟨first, [], rfl, leading, by simp⟩
      obtain ⟨_, _, same, isDigit⟩ := isWhole.head
      cases same
      exact isDigit
    have found : digitValue? first = some (first.toNat - 48) := digitValue?_of_isDigit isDigit
    have number : ofDigits (digitValues [first]) = first.toNat - 48 := by
      rw [digitValues_singleton found]
      simp [ofDigits]
    refine ⟨by omega, ?_⟩
    rw [number, Nat.toDigits_of_lt_base (by omega), List.map_singleton, asciiDigit_of_value found]
  | append_singleton digits last inductionHypothesis =>
    rw [List.forall_mem_append] at all
    obtain ⟨positive, numeral⟩ := inductionHypothesis all.1
    obtain ⟨value, found⟩ := Option.isSome_iff_exists.mp (all.2 last (List.mem_singleton_self last))
    have small := digitValue?_lt found
    have number : ofDigits (digitValues (first :: (digits ++ [last]))) =
        10 * ofDigits (digitValues (first :: digits)) + value := by
      have split : digitValues (first :: (digits ++ [last])) =
          digitValues (first :: digits) ++ [value] := by
        rw [← List.cons_append, digitValues, List.filterMap_append, ← digitValues, ← digitValues,
          digitValues_singleton found]
      rw [split, ofDigits, List.foldl_append]
      rfl
    refine ⟨by omega, ?_⟩
    rw [number, ← Nat.toDigits_append_toDigits (by decide) positive small, numeral,
      Nat.toDigits_of_lt_base small, ← List.cons_append, List.map_append, List.map_singleton,
      asciiDigit_of_value found]

/-- The digits of a number without a fraction are the numeral of what they denote. -/
theorem toDigits_of_isWhole {whole : List Char} (isWhole : IsWhole whole) :
    Nat.toDigits 10 (ofDigits (digitValues whole)) = whole.map asciiDigit := by
  rcases isWhole with rfl | ⟨first, digits, rfl, leading, all⟩
  · rfl
  · exact (toDigits_of_leading leading all).2

/-- A number without a fraction denotes zero only if it is a zero. -/
theorem pos_of_isWhole {whole : List Char} (isWhole : IsWhole whole) (notZero : whole ≠ ['0']) :
    0 < ofDigits (digitValues whole) := by
  rcases isWhole with isZero | ⟨first, digits, rfl, leading, all⟩
  · exact absurd isZero notZero
  · exact (toDigits_of_leading leading all).1

/-- What a signed number denotes is written with the ASCII digits, and a zero without a sign. -/
theorem toString_signed {sign whole : List Char} (isSign : IsSign sign) (isWhole : IsWhole whole) :
    toString (if sign = ['-'] then -(ofDigits (digitValues whole) : Int)
      else ofDigits (digitValues whole)) =
        if sign ++ whole = ['-', '0'] then "0"
        else String.ofList ((sign ++ whole).map asciiDigit) := by
  have numeral := toDigits_of_isWhole isWhole
  rw [← String.ofList_toList (s := toString _), toList_toString]
  rcases isSign with rfl | rfl
  · have notNegative : ¬ (ofDigits (digitValues whole) : Int) < 0 := by omega
    have unsigned : whole ≠ ['-', '0'] := by
      rintro rfl
      obtain ⟨_, _, same, isDigit⟩ := isWhole.head
      cases same
      cases isDigit
    simp [notNegative, unsigned, numeral]
  · by_cases isZero : whole = ['0']
    · subst isZero
      rfl
    · have positive := pos_of_isWhole isWhole isZero
      have minus : asciiDigit '-' = '-' := by decide
      simp [positive, isZero, numeral, minus]

end Numeral

namespace Literal

variable {text : String} {tokens : List Token} {token : Token}

/-- A literal is passed where its token comes next. -/
theorem literal_of_ofToken {found : Literal} (reads : ofToken token = .ok found)
    {bounds : Bounds} {cursor : Cursor} {rest : List Token} (next : cursor.rest = token :: rest) :
    Parser.literal bounds cursor = .ok found (cursor.pass token rest) :=
  Parser.literal_eq_ok.mpr ⟨token, reads, (Cursor.Passes.single_iff next).mpr ⟨rfl, rfl⟩⟩

/-- The form of a number that is a token. -/
theorem form_of_number (scanned : tokenize text = .ok tokens) (isToken : token ∈ tokens)
    (isNumber : token.kind = .number) :
    ∃ sign whole fraction, token.text.toList = sign ++ (whole ++ fraction) ∧ IsSign sign ∧
      IsWhole whole ∧ IsFraction fraction := by
  obtain ⟨_, _, takenFrom⟩ := takenFrom_of_tokenize scanned token isToken
  have found := (firstLexeme?_eq_some_iff.mp takenFrom.taken).1
  rw [isNumber] at found
  obtain ⟨sign, whole, fraction, _, same, _, isSign, isWhole, isFraction, _⟩ :=
    number_eq_some_iff.mp found
  exact ⟨sign, whole, fraction, same, isSign, isWhole, isFraction⟩

/-- A number without a point that is not too long is read, and the integer is written as the
token is. -/
theorem integer_of_token (scanned : tokenize text = .ok tokens) (isToken : token ∈ tokens)
    (isNumber : token.kind = .number) (noPoint : '.' ∉ token.text.toList)
    (short : token.digitCount ≤ Integer.digitLimit) :
    ∃ number : Int, ofToken token = .ok (.integer number) ∧
      toString number =
        if token.text = "-0" then "0" else String.ofList (token.text.toList.map asciiDigit) := by
  obtain ⟨sign, whole, fraction, same, isSign, isWhole, isFraction⟩ :=
    form_of_number scanned isToken isNumber
  rcases isFraction with rfl | ⟨digits, rfl, _⟩
  · rw [List.append_nil] at same
    have isZero : token.text = "-0" ↔ sign ++ whole = ['-', '0'] := by
      rw [← same, ← String.toList_inj]
      rfl
    refine ⟨_, ?_, toString_signed isSign isWhole |>.trans ?_⟩
    · rw [ofToken, isNumber]
      exact (readNumber_whole isSign isWhole same).trans (if_neg (Nat.not_lt.mpr short))
    · simp only [isZero, same]
  · exact absurd (by simp [same]) noPoint

/-- Behind a leading zero a number has its point. -/
theorem point_of_leading_zero (scanned : tokenize text = .ok tokens) (isToken : token ∈ tokens)
    (isNumber : token.kind = .number) {sign rest : List Char} {next : Char}
    (isSign : IsSign sign) (leadingZero : token.text.toList = sign ++ '0' :: next :: rest) :
    next = '.' := by
  obtain ⟨numberSign, whole, fraction, same, isNumberSign, isWhole, isFraction⟩ :=
    form_of_number scanned isToken isNumber
  rw [same] at leadingZero
  have unsigned : whole ++ fraction = '0' :: next :: rest := by
    obtain ⟨first, _, rfl, isDigit⟩ := isWhole.head
    rcases isNumberSign with rfl | rfl <;> rcases isSign with rfl | rfl
    · exact leadingZero
    · obtain ⟨rfl, _⟩ := List.cons.inj leadingZero
      cases isDigit
    · cases leadingZero
    · exact (List.cons.inj leadingZero).2
  rcases isWhole with rfl | ⟨_, _, rfl, leading, _⟩
  · rcases isFraction with rfl | ⟨_, rfl, _⟩
    · cases unsigned
    · cases unsigned
      rfl
  · obtain ⟨rfl, _⟩ := List.cons.inj unsigned
    exact absurd leading.1 (by decide)

/-- The numeral of an integer that is not too long is one token, which is read as the integer. -/
theorem token_of_integer {number : Int}
    (short : (Nat.toDigits 10 number.natAbs).length ≤ Integer.digitLimit) :
    tokenize (toString number) = .ok [⟨.number, toString number, 0⟩] ∧
      ofToken ⟨.number, toString number, 0⟩ = .ok (.integer number) := by
  have takenAs : (integer number).TakenAs .number [] :=
    integer_takenAs (decide_eq_true short) .nil
  have taken : firstLexeme? ((toString number).toList ++ []) =
      some (.number, (toString number).toList) := takenAs.1
  rw [List.append_nil] at taken
  exact ⟨tokenize_of_firstLexeme? (by decide) taken, takenAs.2 0⟩

/-- Integers lose nothing. A number token without a point and with no more digits than the limit
is read as an integer, and that is written in decimal as the token is, with ASCII digits and
without the sign of a zero. So no digits follow the leading zero of a number. And the numeral of an
integer that has no more digits than the limit is one token, which is read as that integer. -/
theorem integer_tokens :
    (∀ (text : String) (tokens : List Token), tokenize text = .ok tokens →
      ∀ token ∈ tokens, token.kind = .number →
        ('.' ∉ token.text.toList → token.digitCount ≤ Integer.digitLimit →
          ∃ number : Int,
            (∀ bounds cursor rest, cursor.rest = token :: rest →
              Parser.literal bounds cursor = .ok (.integer number) (cursor.pass token rest)) ∧
            toString number =
              if token.text = "-0" then "0"
              else String.ofList (token.text.toList.map asciiDigit)) ∧
        ∀ sign next rest, IsSign sign → token.text.toList = sign ++ '0' :: next :: rest →
          next = '.') ∧
    ∀ number : Int, (Nat.toDigits 10 number.natAbs).length ≤ Integer.digitLimit →
      tokenize (toString number) = .ok [⟨.number, toString number, 0⟩] ∧
      ∀ bounds cursor rest, cursor.rest = ⟨.number, toString number, 0⟩ :: rest →
        Parser.literal bounds cursor =
          .ok (.integer number) (cursor.pass ⟨.number, toString number, 0⟩ rest) := by
  refine ⟨?_, ?_⟩
  · intro text tokens scanned token isToken isNumber
    refine ⟨fun noPoint short => ?_, fun sign next rest => ?_⟩
    · obtain ⟨number, reads, written⟩ :=
        integer_of_token scanned isToken isNumber noPoint short
      exact ⟨number, fun _ _ _ next => literal_of_ofToken reads next, written⟩
    · exact point_of_leading_zero scanned isToken isNumber
  · intro number short
    obtain ⟨single, reads⟩ := token_of_integer short
    exact ⟨single, fun _ _ _ next => literal_of_ofToken reads next⟩

/-- Tokens of which two are numbers. Digits behind a leading zero are a word. -/
def codeTokens : List Token :=
  [⟨.word, "n", 0⟩, ⟨.equal, "=", 1⟩, ⟨.number, "-1٣", 2⟩, ⟨.and, "&", 5⟩, ⟨.word, "p", 6⟩,
    ⟨.equal, "=", 7⟩, ⟨.number, "0.5", 8⟩, ⟨.and, "&", 11⟩, ⟨.word, "c", 12⟩, ⟨.equal, "=", 13⟩,
    ⟨.word, "007", 14⟩]

/-- A digit of another script counts, a fraction keeps its point, and leading zeros make a word.
-/
theorem integer_tokens_code :
    tokenize "n=-1٣&p=0.5&c=007" = .ok codeTokens ∧
    (∃ number : Int,
      (∀ bounds cursor rest, cursor.rest = ⟨.number, "-1٣", 2⟩ :: rest →
        Parser.literal bounds cursor =
          .ok (.integer number) (cursor.pass ⟨.number, "-1٣", 2⟩ rest)) ∧
      toString number = "-13") ∧
    (∀ next rest, "0.5".toList = '0' :: next :: rest → next = '.') ∧
    (Nat.toDigits 10 (-13 : Int).natAbs).length ≤ Integer.digitLimit ∧
    tokenize "-13" = .ok [⟨.number, "-13", 0⟩] := by
  have scanned : tokenize "n=-1٣&p=0.5&c=007" = .ok codeTokens := by rfl
  have short : (Nat.toDigits 10 (-13 : Int).natAbs).length ≤ Integer.digitLimit := by decide
  refine ⟨scanned, ?_, ?_, short, (integer_tokens.2 (-13) short).1⟩
  · exact (integer_tokens.1 _ _ scanned ⟨.number, "-1٣", 2⟩ (by decide) rfl).1
      (by decide) (by decide)
  · intro next rest
    exact (integer_tokens.1 _ _ scanned ⟨.number, "0.5", 8⟩ (by decide) rfl).2 [] next rest
      (.inl rfl)

end Literal

end UrlFilter
