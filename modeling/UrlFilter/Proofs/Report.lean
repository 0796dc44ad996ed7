import Mathlib.Algebra.Group.Int.Defs
import Mathlib.Algebra.Group.Nat.Defs
import UrlFilter.Failure

/-!
# Reports that can be made

A value can be described exactly if all integers in it are short, and a report can be made exactly
if all integers in its details are. Nothing else prevents either of them.
-/

namespace UrlFilter

open UrlFilter.Numeral

/-- An integer is short if its distance from zero is less than a certain power of ten. -/
theorem Numeral.Integer.isShort_iff {number : Int} :
    IsShort number ↔ number.natAbs < 10 ^ digitLimit :=
  Nat.length_toDigits_le_iff (by decide) (by decide)

/-- What is not farther from zero than a short integer is short. -/
theorem Numeral.Integer.IsShort.of_natAbs_le {number other : Int} (short : IsShort number)
    (nearer : other.natAbs ≤ number.natAbs) : IsShort other :=
  isShort_iff.mpr (Nat.lt_of_le_of_lt nearer (isShort_iff.mp short))

namespace Value

mutual

/-- The integers in a value. -/
def integers : Value → List Int
  | .null | .bool _ | .float _ | .text _ | .regex _ => []
  | .int number => [number]
  | .list items => integersOfItems items
  | .map entries => integersOfEntries entries

/-- The integers in the items of a list. -/
def integersOfItems : List Value → List Int
  | [] => []
  | item :: rest => item.integers ++ integersOfItems rest

/-- The integers in the entries of a map. -/
def integersOfEntries : List (String × Value) → List Int
  | [] => []
  | (_, value) :: rest => value.integers ++ integersOfEntries rest

end

section Success

variable {α β γ : Type}

/-- Finishing a result does not fail. -/
private theorem isOk_finish (made : Except DescribeError α) (finish : α → β) :
    (made >>= fun value => pure (finish value)).isOk = made.isOk := by
  cases made <;> rfl

/-- Two results are joined if there are both of them. -/
private theorem isOk_join (first : Except DescribeError α) (second : Except DescribeError β)
    (join : α → β → γ) :
    (first >>= fun left => second >>= fun right => pure (join left right)).isOk =
      (first.isOk && second.isOk) := by
  cases first <;> cases second <;> rfl

end Success

/-- An integer can be described exactly if it is short. -/
theorem isOk_describe_int (number : Int) :
    (Integer.describe number).isOk = true ↔ Integer.IsShort number := by
  unfold Integer.describe
  split
  · next short => exact iff_of_true rfl short
  · next long => exact iff_of_false nofun long

mutual

/-- A value can be described exactly if all integers in it are short. -/
theorem isOk_describe :
    (value : Value) →
      (value.describe.isOk = true ↔ ∀ number ∈ value.integers, Integer.IsShort number)
  | .null | .bool _ | .float _ | .text _ | .regex _ => by
    simp only [integers, List.not_mem_nil, false_implies, implies_true, iff_true]
    rfl
  | .int number => by
    rw [describe, isOk_describe_int, integers, List.forall_mem_singleton]
  | .list items => by
    rw [describe, isOk_finish, isOk_describeItems items, integers]
  | .map entries => by
    rw [describe, isOk_finish, isOk_describeEntries entries, integers]

/-- A list of values can be described exactly if all integers in it are short. -/
theorem isOk_describeItems :
    (items : List Value) →
      ((describeItems items).isOk = true ↔ ∀ number ∈ integersOfItems items, Integer.IsShort number)
  | [] => by
    simp only [integersOfItems, List.not_mem_nil, false_implies, implies_true, iff_true]
    rfl
  | item :: rest => by
    rw [describeItems, isOk_join, Bool.and_eq_true, isOk_describe item, isOk_describeItems rest,
      integersOfItems, List.forall_mem_append]

/-- Entries can be described exactly if all integers in them are short. -/
theorem isOk_describeEntries :
    (entries : List (String × Value)) →
      ((describeEntries entries).isOk = true ↔
        ∀ number ∈ integersOfEntries entries, Integer.IsShort number)
  | [] => by
    simp only [integersOfEntries, List.not_mem_nil, false_implies, implies_true, iff_true]
    rfl
  | (key, value) :: rest => by
    rw [describeEntries, isOk_join, Bool.and_eq_true, isOk_describe value,
      isOk_describeEntries rest, integersOfEntries, List.forall_mem_append]

end

end Value

namespace Report

/-- Details can be described exactly if all integers in them are short. -/
theorem isOk_describeDetails (details : Table Value) :
    (details.mapM describeDetail).isOk = true ↔
      ∀ number ∈ Value.integersOfEntries details, Integer.IsShort number := by
  induction details with
  | nil => exact iff_of_true rfl nofun
  | cons detail rest inductionHypothesis =>
    rw [List.mapM_cons, Value.isOk_join, describeDetail, Value.isOk_finish, Bool.and_eq_true,
      inductionHypothesis, Value.isOk_describe, Value.integersOfEntries, List.forall_mem_append]

/-- A report has a text exactly if all integers in its details are short. -/
theorem isOk_text (report : Report) :
    report.text.isOk = true ↔
      ∀ number ∈ Value.integersOfEntries report.details, Integer.IsShort number := by
  have hasDetailText : report.detailText.isOk = true ↔
      ∀ number ∈ Value.integersOfEntries report.details, Integer.IsShort number := by
    rw [detailText, Value.isOk_finish, isOk_describeDetails]
  unfold text
  split
  · next noDetails =>
    rw [List.isEmpty_iff.mp noDetails]
    exact iff_of_true rfl nofun
  · split
    · exact hasDetailText
    · rw [Value.isOk_finish]
      exact hasDetailText

/-- A report can be made exactly if all integers in its details are short. -/
theorem make_eq (errorClass : ErrorClass) (message : String) (details : Table Value) :
    make errorClass message details =
      if ∀ number ∈ Value.integersOfEntries details, Integer.IsShort number then
        .ok ⟨errorClass, message, details⟩
      else .error .tooManyDigits := by
  have hasText := isOk_text ⟨errorClass, message, details⟩
  have steps : make errorClass message details =
      (discard (text ⟨errorClass, message, details⟩) >>= fun _ =>
        pure ⟨errorClass, message, details⟩) := rfl
  cases made : text ⟨errorClass, message, details⟩ with
  | ok shown =>
    rw [made] at hasText
    rw [steps, made, if_pos (hasText.mp rfl)]
    rfl
  | error failure =>
    rw [made] at hasText
    rw [steps, made, if_neg fun short => nomatch hasText.mpr short]
    rfl

/-- No report is made of details with an integer that is not short. -/
theorem make_eq_error {errorClass : ErrorClass} {message : String} {details : Table Value}
    {number : Int} (named : number ∈ Value.integersOfEntries details)
    (long : ¬ Integer.IsShort number) :
    make errorClass message details = .error .tooManyDigits := by
  rw [make_eq, if_neg fun short => long (short number named)]

/-- A report that is made is of the class and has the message and the details. -/
theorem eq_of_make {errorClass : ErrorClass} {message : String} {details : Table Value}
    {report : Report} (made : make errorClass message details = .ok report) :
    report = ⟨errorClass, message, details⟩ := by
  rw [make_eq] at made
  split at made <;> cases made
  rfl

/-- The details of a place without further ones name no integer but the offset. -/
theorem integersOfEntries_placeDetails (offset : Int) (token : Option String) :
    Value.integersOfEntries (placeDetails offset token []) = [offset] := by
  cases token <;> rfl

end Report

namespace GrammarError

/-- The details of an input that ends too early name no integer but the offset of the end. -/
theorem integers_endOfInput (expected : Option Kind) (offset : Int) :
    Value.integersOfEntries (endOfInput expected offset).details = [offset] :=
  Report.integersOfEntries_placeDetails offset none

/-- The details of a token that does not belong where it stands name no integers but the offset of
the token and the limit that is exceeded there. -/
theorem mem_integers_unexpected {objection : Objection} {token : Token} {number : Int} :
    number ∈ Value.integersOfEntries (unexpected objection token).details ↔
      number = token.offset ∨ objection = .tooDeep number := by
  cases objection with
  | tooDeep limit =>
    have both : Value.integersOfEntries (unexpected (.tooDeep limit) token).details =
        [token.offset, limit] := rfl
    simp [both, eq_comm]
  | expected | trailing | notBetween | notComparison | notLiteral =>
    change number ∈ Value.integersOfEntries
      (Report.placeDetails token.offset (some token.text) []) ↔ _
    simp [Report.integersOfEntries_placeDetails]

end GrammarError

end UrlFilter
