import UrlFilter.Numeral.Integer
import UrlFilter.Token.Lexeme

/-!
# Digits of numerals

A digit is neither padding nor any other character that a numeral may have, so a numeral
that is only digits is read digit by digit.
-/

namespace UrlFilter

namespace Text

/-- What holds of every ASCII character can be checked one by one. -/
theorem of_ascii (P : Char → Prop) (all : ∀ code < 128, P (Char.ofNat code)) {c : Char}
    (ascii : c.toNat < 128) : P c := by
  have holds := all c.toNat ascii
  rwa [Char.ofNat_toNat] at holds

/-- A decimal digit is one of the ten characters from some zero on. -/
theorem exists_zero_of_isDecimalDigit {c : Char} (isDigit : isDecimalDigit c = true) :
    ∃ base ∈ zeroDigits, base ≤ c.toNat ∧ c.toNat < base + 10 := by
  obtain ⟨value, found⟩ := Option.isSome_iff_exists.mp isDigit
  obtain ⟨base, isZero, inside⟩ := List.exists_of_findSome?_eq_some found
  split at inside
  · next range => exact ⟨base, isZero, range⟩
  · cases inside

/-- A digit has one of ten values. -/
theorem digitValue?_lt {c : Char} {value : Nat} (found : digitValue? c = some value) :
    value < 10 := by
  obtain ⟨base, _, inside⟩ := List.exists_of_findSome?_eq_some found
  split at inside
  · cases inside
    omega
  · cases inside

/-- No digit is a blank. -/
theorem isBlank_of_isDecimalDigit {c : Char} (isDigit : isDecimalDigit c = true) :
    isBlank c = false := by
  have apart : ∀ base ∈ zeroDigits, ∀ range ∈ blankRanges,
      base + 10 ≤ range.first ∨ range.last < base := by
    decide
  obtain ⟨base, isZero, lower, upper⟩ := exists_zero_of_isDecimalDigit isDigit
  cases blank : isBlank c with
  | false => rfl
  | true =>
    obtain ⟨range, isRange, inside⟩ := List.any_eq_true.mp blank
    simp only [CodeRange.contains, Bool.and_eq_true, decide_eq_true_eq] at inside
    have outside := apart base isZero range isRange
    omega

/-- No digit surrounds a numeral. -/
theorem isPadding_of_isDecimalDigit {c : Char} (isDigit : isDecimalDigit c = true) :
    isPadding c = false := by
  rw [isPadding, isBlank_of_isDecimalDigit isDigit]
  rfl

/-- An ASCII digit is an ASCII character. -/
theorem toNat_lt_of_isDigit {c : Char} (isDigit : c.isDigit = true) : c.toNat < 128 := by
  simp only [Char.isDigit, Bool.and_eq_true, decide_eq_true_eq] at isDigit
  have upper : c.toNat ≤ 57 := isDigit.2
  omega

/-- The value of an ASCII digit. -/
theorem digitValue?_of_isDigit {c : Char} (isDigit : c.isDigit = true) :
    digitValue? c = some (c.toNat - '0'.toNat) := by
  have checked := of_ascii
    (fun c => c.isDigit = true → digitValue? c = some (c.toNat - '0'.toNat)) (by decide)
    (toNat_lt_of_isDigit isDigit)
  exact checked isDigit

/-- An ASCII digit is a decimal digit. -/
theorem isDecimalDigit_of_isDigit {c : Char} (isDigit : c.isDigit = true) :
    isDecimalDigit c = true := by
  rw [isDecimalDigit, digitValue?_of_isDigit isDigit]
  rfl

/-- Text without a separator is one part. -/
theorem parts_of_not_mem {separator : Char} {text : List Char} (absent : separator ∉ text) :
    parts separator text = [text] := by
  induction text with
  | nil => rfl
  | cons c rest inductionHypothesis =>
    rw [List.mem_cons, not_or] at absent
    rw [parts, if_neg (Ne.symm absent.1), inductionHypothesis absent.2]
    rfl

end Text

namespace Numeral

open UrlFilter.Text

section Digits

variable {digits : List Char}

/-- Digits make a run. -/
theorem inRun_of_digits (all : ∀ digit ∈ digits, isDecimalDigit digit = true) :
    ∀ digit ∈ digits, inRun digit = true := by
  intro digit isDigit
  rw [inRun, all digit isDigit, Bool.true_or]

/-- A run of digits has no underscore that could stand alone. -/
theorem wellSpaced_of_digits (nonempty : digits ≠ [])
    (all : ∀ digit ∈ digits, isDecimalDigit digit = true) : wellSpaced digits = true := by
  have noUnderscore : '_' ∉ digits := by
    intro isUnderscore
    exact absurd (all '_' isUnderscore) (by decide)
  rw [wellSpaced, parts_of_not_mem noUnderscore]
  simp [nonempty]

/-- Every digit has a value. -/
theorem length_digitValues (all : ∀ digit ∈ digits, isDecimalDigit digit = true) :
    (digitValues digits).length = digits.length := by
  induction digits with
  | nil => rfl
  | cons digit rest inductionHypothesis =>
    obtain ⟨value, isValue⟩ := Option.isSome_iff_exists.mp (all digit List.mem_cons_self)
    have further := inductionHypothesis fun later isLater => all later (.tail _ isLater)
    rw [digitValues, List.filterMap_cons_some isValue, List.length_cons, List.length_cons]
    rw [digitValues] at further
    rw [further]

/-- The digits of a number denote it. -/
theorem ofDigits_toDigits (number : Nat) :
    ofDigits (digitValues (Nat.toDigits 10 number)) = number := by
  have values : ∀ digits : List Char, (∀ digit ∈ digits, digit.isDigit = true) →
      digitValues digits = digits.map fun digit => digit.toNat - '0'.toNat := by
    intro digits all
    induction digits with
    | nil => rfl
    | cons digit rest inductionHypothesis =>
      have isValue := digitValue?_of_isDigit (all digit List.mem_cons_self)
      have further := inductionHypothesis fun later isLater => all later (.tail _ isLater)
      rw [digitValues] at further
      rw [digitValues, List.filterMap_cons_some isValue, List.map_cons, further]
  have isDigits : ∀ digit ∈ Nat.toDigits 10 number, digit.isDigit = true :=
    fun digit => Nat.isDigit_of_mem_toDigits (by decide) (by decide)
  rw [values _ isDigits, ofDigits, List.foldl_map]
  exact Nat.ofDigitChars_ten_toDigits

end Digits

end Numeral

end UrlFilter
