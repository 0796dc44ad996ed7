import UrlFilter.Numeral.Decimal
import UrlFilter.Proofs.Numeral.Digits
import UrlFilter.Proofs.Token.Lexeme

/-!
# Reading numerals

A lexeme of a number is a decimal numeral if it has a fraction, and an integer numeral
otherwise unless it has too many digits. Every integer is read back from its numeral.
-/

namespace UrlFilter

open UrlFilter.Text UrlFilter.Numeral

namespace Lexeme

/-- All characters before the point are digits. -/
theorem IsWhole.digits {whole : List Char} (isWhole : IsWhole whole) :
    ∀ digit ∈ whole, isDecimalDigit digit = true := by
  obtain ⟨first, others, rfl, isDigit⟩ := isWhole.head
  have firstDigit := isDecimalDigit_of_isDigit isDigit
  rcases isWhole with same | ⟨_, _, same, _, all⟩
  · cases same
    simpa using firstDigit
  · cases same
    simpa [firstDigit] using all

/-- A number without a fraction has no point. -/
theorem IsWhole.noPoint {sign whole : List Char} (isWhole : IsWhole whole) (isSign : IsSign sign) :
    '.' ∉ sign ++ whole := by
  have notInWhole : '.' ∉ whole := by
    intro isPoint
    exact absurd (isWhole.digits _ isPoint) (by decide)
  rcases isSign with rfl | rfl
  · exact notInWhole
  · simp [notInWhole]

/-- The digits of a number without a fraction are those behind the sign. -/
theorem IsWhole.filter_digits {sign whole : List Char} (isWhole : IsWhole whole)
    (isSign : IsSign sign) : (sign ++ whole).filter isDecimalDigit = whole := by
  have allDigits : whole.filter isDecimalDigit = whole :=
    List.filter_eq_self.mpr isWhole.digits
  rcases isSign with rfl | rfl
  · exact allDigits
  · have notDigit : isDecimalDigit '-' = false := by decide
    simp [allDigits, notDigit]

end Lexeme

open UrlFilter.Lexeme

namespace Numeral

/-- A sign is told apart from the digit behind it. -/
theorem splitSign_append {sign digits : List Char} {digit : Char} (isSign : IsSign sign)
    (isDigit : isDecimalDigit digit = true) :
    splitSign (sign ++ digit :: digits) = (sign == ['-'], digit :: digits) := by
  rcases isSign with rfl | rfl
  · have notMinus : digit ≠ '-' := by
      rintro rfl
      exact absurd isDigit (by decide)
    have notPlus : digit ≠ '+' := by
      rintro rfl
      exact absurd isDigit (by decide)
    simp [splitSign, notMinus, notPlus]
  · rfl

/-- No padding stands in front of a signed digit. -/
theorem dropWhile_padding {sign digits : List Char} {digit : Char} (isSign : IsSign sign)
    (isDigit : isDecimalDigit digit = true) :
    (sign ++ digit :: digits).dropWhile isPadding = sign ++ digit :: digits := by
  rcases isSign with rfl | rfl
  · simp [isPadding_of_isDecimalDigit isDigit]
  · have notPadding : isPadding '-' = false := by decide
    simp [notPadding]

/-- A number without a fraction is an integer numeral, unless it has too many digits. -/
theorem Integer.read_whole {sign whole : List Char} (isSign : IsSign sign)
    (isWhole : IsWhole whole) :
    Integer.read (String.ofList (sign ++ whole)) =
      if digitLimit < whole.length then .error (.tooManyDigits whole.length)
      else .ok (if sign = ['-'] then -(ofDigits (digitValues whole) : Int)
        else ofDigits (digitValues whole)) := by
  have runs := inRun_of_digits isWhole.digits
  have taken : (whole ++ []).takeWhile inRun = whole := takeWhile_append_stop runs rfl
  have dropped : (whole ++ []).dropWhile inRun = [] := dropWhile_append_stop runs rfl
  rw [List.append_nil] at taken dropped
  have spaced := wellSpaced_of_digits isWhole.nonempty isWhole.digits
  have counted := length_digitValues isWhole.digits
  obtain ⟨digit, digits, same, isDigit⟩ := isWhole.head
  have first := isDecimalDigit_of_isDigit isDigit
  have unpadded : (sign ++ whole).dropWhile isPadding = sign ++ whole := by
    rw [same, dropWhile_padding isSign first]
  have split : splitSign (sign ++ whole) = (sign == ['-'], whole) := by
    rw [same, splitSign_append isSign first]
  simp only [read, String.toList_ofList, unpadded, split, taken, dropped, spaced, counted]
  simp

/-- The numeral of a number has no leading zero. -/
theorem isWhole_toDigits (number : Nat) : IsWhole (Nat.toDigits 10 number) := by
  induction number using Nat.strongRecOn with
  | ind number inductionHypothesis =>
    by_cases small : number < 10
    · have oneDigit : ∀ digit < 10,
          digit = 0 ∨ ('1' ≤ digit.digitChar ∧ digit.digitChar ≤ '9') := by
        decide
      rw [Nat.toDigits_of_lt_base small]
      rcases oneDigit number small with isZero | range
      · exact .inl (by rw [isZero]; rfl)
      · exact .inr ⟨number.digitChar, [], rfl, range, by simp⟩
    · have large : 10 ≤ number := Nat.le_of_not_lt small
      have lastDigit : isDecimalDigit (number % 10).digitChar = true := by
        have all : ∀ digit < 10, isDecimalDigit digit.digitChar = true := by
          decide
        exact all _ (Nat.mod_lt _ (by decide))
      rw [Nat.toDigits_of_base_le (by decide) large]
      rcases inductionHypothesis (number / 10) (by omega) with
        isZero | ⟨c, digits, same, range, all⟩
      · have value : Nat.ofDigitChars 10 (Nat.toDigits 10 (number / 10)) 0 = number / 10 :=
          Nat.ofDigitChars_ten_toDigits
        rw [isZero] at value
        have noTens : number / 10 = 0 := value.symm
        omega
      · refine .inr ⟨c, digits ++ [(number % 10).digitChar], by rw [same]; rfl, range, ?_⟩
        intro digit isDigit
        rcases List.mem_append.mp isDigit with earlier | isLast
        · exact all digit earlier
        · rw [List.mem_singleton.mp isLast]
          exact lastDigit

/-- The numeral of an integer is a sign and digits. -/
theorem toList_toString (number : Int) :
    (toString number).toList =
      (if number < 0 then ['-'] else []) ++ Nat.toDigits 10 number.natAbs := by
  rw [Int.toString_eq_repr, Int.repr_eq_if]
  by_cases negative : number < 0
  · have magnitude : (-number).toNat = number.natAbs := by omega
    have notNatural : ¬ 0 ≤ number := by omega
    simp [negative, notNatural, magnitude]
  · have magnitude : number.toNat = number.natAbs := by omega
    have natural : 0 ≤ number := by omega
    simp [negative, natural, magnitude]

/-- Every integer is read back from its numeral, unless that has too many digits. -/
theorem Integer.read_toString {number : Int}
    (short : (Nat.toDigits 10 number.natAbs).length ≤ digitLimit) :
    Integer.read (toString number) = .ok number := by
  have notLong : ¬ digitLimit < (Nat.toDigits 10 number.natAbs).length := Nat.not_lt.mpr short
  have isSign : IsSign (if number < 0 then ['-'] else []) := by
    split
    · exact .inr rfl
    · exact .inl rfl
  rw [← String.ofList_toList (s := toString number), toList_toString,
    read_whole isSign (isWhole_toDigits _), if_neg notLong, ofDigits_toDigits]
  by_cases negative : number < 0
  · simp only [negative, if_true]
    congr 1
    omega
  · simp only [negative, if_false, List.nil_eq, List.cons_ne_nil]
    congr 1
    omega

/-- Nothing is trimmed behind a character outside the class. -/
theorem dropWhileEnd_concat {inClass : Char → Bool} {last : Char} (outside : inClass last = false)
    (text : List Char) : dropWhileEnd inClass (text ++ [last]) = text ++ [last] := by
  simp [dropWhileEnd, outside]

/-- A numeral that starts with a digit is not the name of a number. -/
theorem not_name_of_digit {digit : Char} {rest : List Char} (isDigit : digit.isDigit = true) :
    String.ofList ((digit :: rest).map Char.toLower) ≠ "inf" ∧
      String.ofList ((digit :: rest).map Char.toLower) ≠ "infinity" ∧
      String.ofList ((digit :: rest).map Char.toLower) ≠ "nan" := by
  have notLetter := of_ascii
    (fun c => c.isDigit = true → c.toLower ≠ 'i' ∧ c.toLower ≠ 'n') (by decide)
    (toNat_lt_of_isDigit isDigit) isDigit
  refine ⟨?_, ?_, ?_⟩
  all_goals
    intro same
    have characters := congrArg String.toList same
    rw [String.toList_ofList, List.map_cons] at characters
    have first := (List.cons.inj characters).1
  · exact notLetter.1 first
  · exact notLetter.1 first
  · exact notLetter.2 first

/-- A number with a fraction is a decimal numeral. -/
theorem Decimal.exists_read_fraction {sign whole digits : List Char} (isSign : IsSign sign)
    (isWhole : IsWhole whole) (nonempty : digits ≠ [])
    (all : ∀ digit ∈ digits, isDecimalDigit digit = true) :
    ∃ number, Decimal.read (String.ofList (sign ++ (whole ++ '.' :: digits))) = .ok number := by
  have wholeRuns := inRun_of_digits isWhole.digits
  have fractionRuns := inRun_of_digits all
  have pointStops : ('.' :: digits).head?.any inRun = false := by
    have point : inRun '.' = false := by decide
    simpa using point
  have wholeTaken : (whole ++ '.' :: digits).takeWhile inRun = whole :=
    takeWhile_append_stop wholeRuns pointStops
  have wholeDropped : (whole ++ '.' :: digits).dropWhile inRun = '.' :: digits :=
    dropWhile_append_stop wholeRuns pointStops
  have fractionTaken : (digits ++ []).takeWhile inRun = digits :=
    takeWhile_append_stop fractionRuns rfl
  have fractionDropped : (digits ++ []).dropWhile inRun = [] :=
    dropWhile_append_stop fractionRuns rfl
  rw [List.append_nil] at fractionTaken fractionDropped
  have wholeSpaced := wellSpaced_of_digits isWhole.nonempty isWhole.digits
  have fractionSpaced := wellSpaced_of_digits nonempty all
  have someDigit : digitValues whole ≠ [] := by
    rw [← List.length_pos_iff, length_digitValues isWhole.digits, List.length_pos_iff]
    exact isWhole.nonempty
  obtain ⟨digit, others, same, isDigit⟩ := isWhole.head
  have first := isDecimalDigit_of_isDigit isDigit
  have unpadded : (sign ++ (whole ++ '.' :: digits)).dropWhile isPadding =
      sign ++ (whole ++ '.' :: digits) := by
    rw [same, List.cons_append, dropWhile_padding isSign first]
  have trimmed : dropWhileEnd isPadding (sign ++ (whole ++ '.' :: digits)) =
      sign ++ (whole ++ '.' :: digits) := by
    have lastDigit := isPadding_of_isDecimalDigit (all _ (List.getLast_mem nonempty))
    have atEnd := dropWhileEnd_concat lastDigit (sign ++ (whole ++ '.' :: digits.dropLast))
    simpa only [List.append_assoc, List.cons_append, List.dropLast_concat_getLast] using atEnd
  have split : splitSign (sign ++ (whole ++ '.' :: digits)) =
      (sign == ['-'], whole ++ '.' :: digits) := by
    rw [same, List.cons_append, splitSign_append isSign first]
  have unnamed := @not_name_of_digit digit (others ++ '.' :: digits) isDigit
  rw [← List.cons_append, ← same] at unnamed
  have number : ∃ number, readDigits? (sign == ['-']) (whole ++ '.' :: digits) = some number := by
    simp [readDigits?, wholeTaken, wholeDropped, splitFraction, fractionTaken, fractionDropped,
      splitExponent, optionalRun, wholeSpaced, fractionSpaced, someDigit]
  obtain ⟨number, isNumber⟩ := number
  refine ⟨number, ?_⟩
  simp only [read, String.toList_ofList, unpadded, trimmed, split, unnamed, or_self, if_false,
    isNumber]

end Numeral

end UrlFilter
