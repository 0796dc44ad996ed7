import Mathlib.Data.List.Forall2
import UrlFilter.Proofs.Text.Percent
import UrlFilter.Query.Segment

/-!
# Splitting a query string

A query string is cut at every `&` and each part is decoded on its own. Text that is encoded
has no `&` in it, so the segments come back as they were written, and each goes to the controls
or to the filters by how it starts.
-/

namespace UrlFilter.Segments

open Text

/-- The segment directs the query: it starts with a dollar sign and a name, but not as a
presence clause does. -/
structure Directs (segment : String) : Prop where
  named : ∃ name rest : List Char, name ≠ [] ∧
    (∀ c ∈ name, c.isAlphanum = true ∨ c = '_' ∨ c = '!') ∧ segment.toList = '$' :: (name ++ rest)
  notPresence : ¬ "$exists=".toList <+: segment.toList
  notAbsence : ¬ "$!exists=".toList <+: segment.toList

/-- A segment starts with a control name if a character of one follows a dollar sign: a name
may be one character long. -/
theorem startsWithControlName_iff {segment : List Char} :
    startsWithControlName segment = true ↔ ∃ name rest : List Char, name ≠ [] ∧
      (∀ c ∈ name, c.isAlphanum = true ∨ c = '_' ∨ c = '!') ∧ segment = '$' :: (name ++ rest) := by
  constructor
  · intro starts
    unfold startsWithControlName at starts
    split at starts
    · next c rest =>
      refine ⟨[c], rest, List.cons_ne_nil _ _, ?_, rfl⟩
      intro other isOther
      rw [List.mem_singleton.mp isOther]
      simpa [Lexeme.isNameChar, or_assoc] using starts
    · cases starts
  · rintro ⟨name, rest, nonempty, all, rfl⟩
    obtain ⟨c, others, rfl⟩ := List.exists_cons_of_ne_nil nonempty
    have first := all c List.mem_cons_self
    simpa [startsWithControlName, Lexeme.isNameChar, or_assoc] using first

/-- The controls are the segments that direct the query. -/
theorem isControl_iff {segment : String} : isControl segment = true ↔ Directs segment := by
  have spelled : startsWithPresence segment.toList = true ↔
      "$exists=".toList <+: segment.toList ∨ "$!exists=".toList <+: segment.toList := by
    simp [startsWithPresence, Clause.presenceKeyword, List.isPrefixOf_iff_prefix]
  rw [isControl, Bool.and_eq_true, Bool.not_eq_true', ← Bool.not_eq_true, spelled,
    startsWithControlName_iff, not_or]
  exact ⟨fun ⟨named, notPresence, notAbsence⟩ => ⟨named, notPresence, notAbsence⟩,
    fun ⟨named, notPresence, notAbsence⟩ => ⟨named, notPresence, notAbsence⟩⟩

instance : DecidablePred Directs :=
  fun segment => decidable_of_iff (isControl segment = true) isControl_iff

/-- The items are the encoded segments, one for each. -/
def Encoded (segments items : List String) : Prop :=
  List.Forall₂ (fun segment item => Percent.Encodes segment.toList item.toList) segments items

/-- The query string consists of the encoded segments, in order, and of any number of empty
parts, with `&` between each two. -/
def Writes (segments : List String) (raw : String) : Prop :=
  ∃ items : List String, raw = joined "&" items ∧
    Encoded segments (items.filter fun item => !item.isEmpty)

variable {segments items : List String} {raw : String}

/-- No encoded segment has a separator in it. -/
theorem Encoded.no_separator (encoded : Encoded segments items) :
    ∀ item ∈ items, '&' ∉ item.toList := by
  induction encoded with
  | nil => simp
  | cons encodes _ inductionHypothesis =>
    rw [List.forall_mem_cons]
    exact ⟨encodes.no_separator, inductionHypothesis⟩

/-- Encoded segments are decoded one by one. -/
theorem Encoded.decode (encoded : Encoded segments items) :
    items.map (fun item => String.ofList (Percent.decode item.toList)) = segments := by
  induction encoded with
  | nil => rfl
  | cons encodes _ inductionHypothesis =>
    rw [List.map_cons, encodes.decode, String.ofList_toList, inductionHypothesis]

/-- The parts of what is joined are the items, if no `&` is in one that is not empty. -/
theorem nonemptyParts_joined
    (absent : ∀ item ∈ items.filter fun item => !item.isEmpty, '&' ∉ item.toList) :
    nonemptyParts '&' (joined "&" items).toList =
      (items.filter fun item => !item.isEmpty).map String.toList := by
  have allAbsent : ∀ item ∈ items, '&' ∉ item.toList := by
    intro item isItem
    by_cases isEmpty : item.isEmpty = true
    · simp [String.isEmpty_iff.mp isEmpty]
    · exact absent item (List.mem_filter.mpr ⟨isItem, by simpa using isEmpty⟩)
  by_cases nothing : items = []
  · subst nothing
    rfl
  · have joinedParts := parts_joined nothing allAbsent
    have ampersand : '&'.toString = "&" := rfl
    rw [ampersand] at joinedParts
    have sameEmpty : ∀ item : String, item.toList.isEmpty = item.isEmpty := by
      intro item
      rw [Bool.eq_iff_iff, List.isEmpty_iff, String.toList_eq_nil_iff, String.isEmpty_iff]
    rw [nonemptyParts, joinedParts, List.filter_map]
    simp only [Function.comp_def, sameEmpty]

/-- The segments that a query string is written from are decoded. -/
theorem Writes.decodeAll (written : Writes segments raw) : decodeAll raw = segments := by
  obtain ⟨items, rfl, encoded⟩ := written
  rw [Segments.decodeAll, nonemptyParts_joined encoded.no_separator, List.map_map]
  exact encoded.decode

/-- Splitting undoes encoding: the segments that a query string is written from come back, each
once and in order, those that direct the query as controls and all others as filters. -/
theorem split_of_writes (written : Writes segments raw) :
    split raw = ⟨segments.filter (Directs ·), segments.filter (¬ Directs ·)⟩ := by
  have sameClass : isControl = fun segment => decide (Directs segment) := by
    funext segment
    rw [Bool.eq_iff_iff, isControl_iff, decide_eq_true_iff]
  simp only [split, written.decodeAll, sameClass, decide_not]

/-- A control and a filter with characters of several bytes, escaped in part and in either
case, and with empty parts around them. -/
theorem split_of_writes_mixed :
    Writes ["$select=é", "名='&'"] "&%24select=%c3%A9&&名=%27%26'" ∧
      split "&%24select=%c3%A9&&名=%27%26'" = ⟨["$select=é"], ["名='&'"]⟩ := by
  have dollar : Percent.Escapes (String.utf8EncodeChar '$') "%24".toList :=
    .cons (by decide) (by decide) .nil
  have accented : Percent.Escapes (String.utf8EncodeChar 'é') "%c3%A9".toList :=
    .cons (by decide) (by decide)
      (.cons (by decide) (by decide) .nil)
  have quote : Percent.Escapes (String.utf8EncodeChar '\'') "%27".toList :=
    .cons (by decide) (by decide) .nil
  have separator : Percent.Escapes (String.utf8EncodeChar '&') "%26".toList :=
    .cons (by decide) (by decide) .nil
  have first : Percent.Encodes "$select=é".toList "%24select=%c3%A9".toList :=
    .cons (.escaped dollar)
      (.append (@Percent.Encodes.plain "select=".toList (by simp)) (.cons (.escaped accented) .nil))
  have second : Percent.Encodes "名='&'".toList "名=%27%26'".toList :=
    .append (@Percent.Encodes.plain "名=".toList (by simp))
      (.cons (.escaped quote)
        (.cons (.escaped separator) (@Percent.Encodes.plain ['\''] (by simp))))
  have written : Writes ["$select=é", "名='&'"] "&%24select=%c3%A9&&名=%27%26'" :=
    ⟨["", "%24select=%c3%A9", "", "名=%27%26'"], rfl, .cons first (.cons second .nil)⟩
  refine ⟨written, ?_⟩
  rw [split_of_writes written]
  rfl

end UrlFilter.Segments
