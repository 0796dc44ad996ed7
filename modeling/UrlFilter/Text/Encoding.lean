/-!
# Ways to percent-encode a text

The relation says which texts encode a text, without saying how they are read: every
character stands for itself or is written by the escapes of the bytes that encode it in
UTF-8. `%` and `&` have a meaning of their own in a query string and are always escaped.
-/

namespace UrlFilter.Text.Percent

/-- The character is the hexadecimal digit of the number, in either case. -/
def IsHexDigit (number : Nat) (c : Char) : Prop :=
  c = Nat.digitChar number ∨ c = (Nat.digitChar number).toUpper

instance (number : Nat) (c : Char) : Decidable (IsHexDigit number c) :=
  inferInstanceAs (Decidable (c = Nat.digitChar number ∨ c = (Nat.digitChar number).toUpper))

/-- The text is the escapes of the bytes. -/
inductive Escapes : List UInt8 → List Char → Prop where
  | nil : Escapes [] []
  | cons {byte : UInt8} {bytes : List UInt8} {high low : Char} {text : List Char}
      (isHigh : IsHexDigit (byte.toNat / 16) high) (isLow : IsHexDigit (byte.toNat % 16) low)
      (others : Escapes bytes text) : Escapes (byte :: bytes) ('%' :: high :: low :: text)

/-- The text encodes the character. -/
inductive EncodesChar (c : Char) : List Char → Prop where
  | plain (notPercent : c ≠ '%') (notSeparator : c ≠ '&') : EncodesChar c [c]
  | escaped {text : List Char} (escapes : Escapes (String.utf8EncodeChar c) text) :
      EncodesChar c text

/-- The second text encodes the first one, character by character. -/
inductive Encodes : List Char → List Char → Prop where
  | nil : Encodes [] []
  | cons {c : Char} {rest encoded restEncoded : List Char} (first : EncodesChar c encoded)
      (others : Encodes rest restEncoded) : Encodes (c :: rest) (encoded ++ restEncoded)

/-- Text without `%` and `&` encodes itself. -/
theorem Encodes.plain {text : List Char} (free : ∀ c ∈ text, c ≠ '%' ∧ c ≠ '&') :
    Encodes text text := by
  induction text with
  | nil => exact .nil
  | cons c rest inductionHypothesis =>
    rw [List.forall_mem_cons] at free
    exact .cons (.plain free.1.1 free.1.2) (inductionHypothesis free.2)

/-- What encodes two texts one after the other encodes them together. -/
theorem Encodes.append {first second encoded further : List Char} (isFirst : Encodes first encoded)
    (isSecond : Encodes second further) : Encodes (first ++ second) (encoded ++ further) := by
  induction isFirst with
  | nil => exact isSecond
  | cons encodes _ inductionHypothesis =>
    rw [List.cons_append, List.append_assoc]
    exact .cons encodes inductionHypothesis

end UrlFilter.Text.Percent
