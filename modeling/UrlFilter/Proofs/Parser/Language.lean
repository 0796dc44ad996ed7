import UrlFilter.Expression.Derivation
import UrlFilter.Proofs.Parser.Run

/-!
# Languages that parsers recognize

A language says which tokens write a phrase, what the phrase records, how deep its groups
are nested and which tokens may follow it. `Parser.Recognizes` says that a parser succeeds
on the phrases of a language and on nothing else; lists with separators inherit it from
their items.
-/

namespace UrlFilter

/-- The phrases that a parser is to find. -/
structure Language (α : Type) where
  /-- The tokens write the phrase. -/
  Derives : α → List Token → Prop
  /-- What is recorded for the phrase. -/
  marks : α → List Mark
  /-- How many groups are nested in the phrase. -/
  nesting : α → Nat
  /-- The tokens after the phrase do not belong to it. -/
  Stops : α → List Token → Prop

/-- The language of phrases without marks or groups that end by themselves. -/
def Language.plain {α : Type} (Derives : α → List Token → Prop) : Language α where
  Derives := Derives
  marks _ := []
  nesting _ := 0
  Stops _ _ := True

/-- Where some groups are open, as many more as are nested may be opened. -/
def Bounds.Admits (bounds : Bounds) (opened nesting : Nat) : Prop :=
  nesting = 0 ∨ (opened + nesting : Int) ≤ bounds.depthLimit

/-- Nested groups are admitted one beside the other if each of them is. -/
theorem Bounds.admits_max {bounds : Bounds} {opened left right : Nat} :
    bounds.Admits opened (max left right) ↔
      bounds.Admits opened left ∧ bounds.Admits opened right := by
  unfold Bounds.Admits
  omega

/-- A group is admitted if it may be opened and its inside is admitted in it. -/
theorem Bounds.admits_succ {bounds : Bounds} {opened nesting : Nat} :
    bounds.Admits opened (nesting + 1) ↔
      (opened + 1 : Int) ≤ bounds.depthLimit ∧ bounds.Admits (opened + 1) nesting := by
  unfold Bounds.Admits
  omega

/-- From every cursor with at most `size` tokens left, the parser succeeds exactly on the
phrases of the language. -/
def Parser.Recognizes {α : Type} (bounds : Bounds) (size : Nat) (parser : Parser α)
    (language : Language α) : Prop :=
  ∀ (before after : Cursor) (found : α), before.rest.length ≤ size →
    (parser before = .ok found after ↔
      ∃ tokens, language.Derives found tokens ∧
        bounds.Admits before.depth (language.nesting found) ∧
        before.Passes tokens (language.marks found) after ∧ language.Stops found after.rest)

section Separated

variable {α : Type} {separator : Kind}

/-- The tokens are further items, each after a separator. -/
def FurtherDerives (separator : Kind) (Item : α → List Token → Prop) :
    List α → List Token → Prop
  | [], tokens => tokens = []
  | next :: others, tokens => ∃ between rest, tokens = between :: rest ∧
      between.kind = separator ∧ SeparatedDerives separator Item next others rest

/-- A list is its first item and the further ones. -/
theorem separatedDerives_iff {Item : α → List Token → Prop} {first : α} {others : List α}
    {tokens : List Token} :
    SeparatedDerives separator Item first others tokens ↔
      ∃ firstTokens rest, tokens = firstTokens ++ rest ∧ Item first firstTokens ∧
        FurtherDerives separator Item others rest := by
  constructor
  · intro derived
    cases derived with
    | last derived => exact ⟨tokens, [], by simp, derived, rfl⟩
    | more derived isSeparator further =>
      exact ⟨_, _, rfl, derived, _, _, rfl, isSeparator, further⟩
  · rintro ⟨firstTokens, rest, rfl, derived, further⟩
    cases others with
    | nil =>
      cases further
      simpa using SeparatedDerives.last derived
    | cons next others =>
      obtain ⟨between, rest, rfl, isSeparator, further⟩ := further
      exact .more derived isSeparator further

/-- The language of one or more phrases with separators between them. -/
def Language.separated (separator : Kind) (item : Language α) : Language (α × List α) where
  Derives items := SeparatedDerives separator item.Derives items.1 items.2
  marks items := (items.1 :: items.2).flatMap item.marks
  nesting items := ((items.1 :: items.2).map item.nesting).foldr max 0
  Stops items rest :=
    ¬ StartsWith separator rest ∧ ∀ last ∈ (items.1 :: items.2).getLast?, item.Stops last rest

/-- The language of further phrases, each after a separator. -/
def Language.further (separator : Kind) (item : Language α) : Language (List α) where
  Derives items := FurtherDerives separator item.Derives items
  marks items := items.flatMap item.marks
  nesting items := (items.map item.nesting).foldr max 0
  Stops items rest :=
    ¬ StartsWith separator rest ∧ ∀ last ∈ items.getLast?, item.Stops last rest

/-- Items on the list of further items come in front of it with their separators. -/
theorem furtherDerives_cons {Item : α → List Token → Prop} {next : α} {others : List α}
    {tokens : List Token} :
    FurtherDerives separator Item (next :: others) tokens ↔
      ∃ between nextTokens rest, tokens = between :: (nextTokens ++ rest) ∧
        between.kind = separator ∧ Item next nextTokens ∧
        FurtherDerives separator Item others rest := by
  constructor
  · rintro ⟨between, _, rfl, isSeparator, list⟩
    obtain ⟨nextTokens, rest, rfl, derived, further⟩ := separatedDerives_iff.mp list
    exact ⟨between, nextTokens, rest, rfl, isSeparator, derived, further⟩
  · rintro ⟨between, nextTokens, rest, rfl, isSeparator, derived, further⟩
    exact ⟨between, _, rfl, isSeparator,
      separatedDerives_iff.mpr ⟨nextTokens, rest, rfl, derived, further⟩⟩

variable {bounds : Bounds} {size : Nat} {item : Parser α} {language : Language α}

/-- If a separator ends an item, then the last of several items ends before the rest exactly
if the first one ends before the others and these end before the rest. -/
theorem Language.stops_cons
    (continues : ∀ phrase between rest, between.kind = separator →
      language.Stops phrase (between :: rest))
    {next : α} {others : List α} {tokens rest : List Token}
    (derived : FurtherDerives separator language.Derives others tokens) :
    (∀ last ∈ (next :: others).getLast?, language.Stops last rest) ↔
      language.Stops next (tokens ++ rest) ∧
        ∀ last ∈ others.getLast?, language.Stops last rest := by
  cases others with
  | nil =>
    cases derived
    simp
  | cons second others =>
    obtain ⟨between, behind, rfl, isSeparator, _⟩ := derived
    have nextStops := continues next between (behind ++ rest) isSeparator
    simp [nextStops]

namespace Parser

/-- Fewer tokens are no obstacle. -/
theorem Recognizes.mono {smaller : Nat} (recognizes : item.Recognizes bounds size language)
    (le : smaller ≤ size) : item.Recognizes bounds smaller language :=
  fun before after found short => recognizes before after found (Nat.le_trans short le)

/-- Either there is no separator, or an item follows it and further ones may follow that. -/
theorem further_eq_ok {before after : Cursor} {count : Nat} {items : List α} :
    further separator item (count + 1) before = .ok items after ↔
      (¬ StartsWith separator before.rest ∧ items = [] ∧ after = before) ∨
      ∃ (between : Token) (behind : Cursor) (next : α) (middle : Cursor) (others : List α),
        between.kind = separator ∧ before.Passes [between] [] behind ∧
        item behind = .ok next middle ∧
        further separator item count middle = .ok others after ∧ items = next :: others := by
  simp only [further, bind_eq_ok]
  constructor
  · rintro ⟨accepted, behind, accepting, success⟩
    cases accepted with
    | false =>
      obtain ⟨stopped, rfl⟩ := accept_eq_false.mp accepting
      simp only [Bool.false_eq_true, if_false, pure_eq_ok] at success
      exact .inl ⟨stopped, success.1, success.2⟩
    | true =>
      obtain ⟨between, isSeparator, passes⟩ := accept_eq_true.mp accepting
      simp only [if_true, bind_eq_ok, pure_eq_ok] at success
      obtain ⟨next, middle, nextFound, others, _, othersFound, rfl, rfl⟩ := success
      exact .inr ⟨between, behind, next, middle, others, isSeparator, passes, nextFound,
        othersFound, rfl⟩
  · rintro (⟨stopped, rfl, rfl⟩ |
      ⟨between, behind, next, middle, others, isSeparator, passes, nextFound, othersFound, rfl⟩)
    · exact ⟨false, after, accept_eq_false.mpr ⟨stopped, rfl⟩, pure_eq_ok.mpr ⟨rfl, rfl⟩⟩
    · refine ⟨true, behind, accept_eq_true.mpr ⟨between, isSeparator, passes⟩, ?_⟩
      simp only [if_true, bind_eq_ok, pure_eq_ok]
      exact ⟨next, middle, nextFound, others, after, othersFound, rfl, rfl⟩

/-- Where no token is left, no further item is found. -/
theorem further_zero_recognizes :
    (further separator item 0).Recognizes bounds 0 (language.further separator) := by
  intro before after items short
  have ended : before.rest = [] := List.length_eq_zero_iff.mp (Nat.le_zero.mp short)
  simp only [further, pure_eq_ok, Language.further]
  constructor
  · rintro ⟨rfl, rfl⟩
    exact ⟨[], rfl, .inl rfl, Cursor.Passes.nil_iff.mpr rfl, by simp [ended], by simp⟩
  · rintro ⟨tokens, derived, _, passes, _⟩
    cases items with
    | nil =>
      cases derived
      exact ⟨rfl, Cursor.Passes.nil_iff.mp passes⟩
    | cons next others =>
      obtain ⟨between, rest, rfl, _⟩ := derived
      exact absurd passes (Cursor.Passes.not_of_nil ended)

/-- Further items are recognized if an item is and the further ones behind it are. -/
theorem further_succ_recognizes {count : Nat} (recognizes : item.Recognizes bounds size language)
    (continues : ∀ phrase between rest, between.kind = separator →
      language.Stops phrase (between :: rest))
    (behindRecognizes :
      (further separator item count).Recognizes bounds (size - 1) (language.further separator)) :
    (further separator item (count + 1)).Recognizes bounds size (language.further separator) := by
  intro before after items short
  rw [further_eq_ok]
  constructor
  · rintro (⟨stopped, rfl, rfl⟩ |
      ⟨between, behind, next, middle, others, isSeparator, passes, nextFound, othersFound, rfl⟩)
    · exact ⟨[], rfl, .inl rfl, Cursor.Passes.nil_iff.mpr rfl, stopped, by simp⟩
    · have behindShort := passes.length_single
      obtain ⟨nextTokens, nextDerived, nextAdmitted, nextPasses, nextStops⟩ :=
        (recognizes _ _ _ (by omega)).mp nextFound
      have middleShort := nextPasses.length_rest
      obtain ⟨othersTokens, othersDerived, othersAdmitted, othersPasses, stopped, lastStops⟩ :=
        (behindRecognizes _ _ _ (by omega)).mp othersFound
      refine ⟨between :: (nextTokens ++ othersTokens), ?_, ?_, ?_, stopped, ?_⟩
      · exact furtherDerives_cons.mpr
          ⟨between, nextTokens, othersTokens, rfl, isSeparator, nextDerived, othersDerived⟩
      · rw [nextPasses.depth, passes.depth] at othersAdmitted
        rw [passes.depth] at nextAdmitted
        exact Bounds.admits_max.mpr ⟨nextAdmitted, othersAdmitted⟩
      · exact passes.cons (nextPasses.trans othersPasses)
      · rw [othersPasses.rest] at nextStops
        exact (Language.stops_cons continues othersDerived).mpr ⟨nextStops, lastStops⟩
  · rintro ⟨tokens, derived, admitted, passes, stopped, lastStops⟩
    cases items with
    | nil =>
      cases derived
      have same := Cursor.Passes.nil_iff.mp passes
      subst same
      exact .inl ⟨stopped, rfl, rfl⟩
    | cons next others =>
      obtain ⟨between, nextTokens, othersTokens, rfl, isSeparator, nextDerived, othersDerived⟩ :=
        furtherDerives_cons.mp derived
      obtain ⟨nextAdmitted, othersAdmitted⟩ := Bounds.admits_max.mp admitted
      obtain ⟨nextStops, othersStop⟩ := (Language.stops_cons continues othersDerived).mp lastStops
      obtain ⟨behind, betweenPasses, bothPasses⟩ := passes.uncons
      obtain ⟨middle, nextPasses, othersPasses⟩ := Cursor.Passes.split bothPasses
      have behindShort := betweenPasses.length_single
      have middleShort := nextPasses.length_rest
      refine .inr ⟨between, behind, next, middle, others, isSeparator, betweenPasses,
        (recognizes _ _ _ (by omega)).mpr ⟨nextTokens, nextDerived, ?_, nextPasses, ?_⟩,
        (behindRecognizes _ _ _ (by omega)).mpr
          ⟨othersTokens, othersDerived, ?_, othersPasses, stopped, othersStop⟩, rfl⟩
      · rwa [betweenPasses.depth]
      · rwa [othersPasses.rest]
      · rwa [nextPasses.depth, betweenPasses.depth]

/-- Further items are recognized by taking a separator and an item as long as there is a
separator. The count does not run out before the tokens do. -/
theorem further_recognizes (recognizes : item.Recognizes bounds size language)
    (continues : ∀ phrase between rest, between.kind = separator →
      language.Stops phrase (between :: rest))
    {count : Nat} (enough : size ≤ count) :
    (further separator item count).Recognizes bounds size (language.further separator) := by
  induction count generalizing size with
  | zero =>
    have noTokens : size = 0 := Nat.le_zero.mp enough
    rw [noTokens]
    exact further_zero_recognizes
  | succ count inductionHypothesis =>
    have behind := inductionHypothesis (recognizes.mono (Nat.sub_le size 1)) (by omega)
    exact further_succ_recognizes recognizes continues behind

/-- A list with separators is its first item and the further ones behind it. -/
theorem separated_eq_ok {before after : Cursor} {items : α × List α} :
    separated separator item before = .ok items after ↔
      ∃ middle, item before = .ok items.1 middle ∧
        further separator item middle.rest.length middle = .ok items.2 after := by
  obtain ⟨first, others⟩ := items
  simp only [separated, bind_eq_ok, get_eq_ok, pure_eq_ok]
  constructor
  · rintro ⟨_, middle, firstFound, _, _, ⟨rfl, rfl⟩, _, _, othersFound, same, rfl⟩
    cases same
    exact ⟨_, firstFound, othersFound⟩
  · rintro ⟨middle, firstFound, othersFound⟩
    exact ⟨first, middle, firstFound, middle, middle, ⟨rfl, rfl⟩, others, after, othersFound,
      rfl, rfl⟩

/-- Lists with separators are recognized if their items are, and if a separator ends
an item. -/
theorem separated_recognizes (recognizes : item.Recognizes bounds size language)
    (continues : ∀ phrase between rest, between.kind = separator →
      language.Stops phrase (between :: rest)) :
    (separated separator item).Recognizes bounds size (language.separated separator) := by
  rintro before after ⟨first, others⟩ short
  have behind : ∀ {middle : Cursor} {tokens : List Token} {marks : List Mark},
      before.Passes tokens marks middle →
      (further separator item middle.rest.length).Recognizes bounds middle.rest.length
        (language.further separator) := by
    intro middle tokens marks passes
    have middleShort := passes.length_rest
    have inside : item.Recognizes bounds middle.rest.length language :=
      recognizes.mono (by omega)
    exact further_recognizes inside continues (Nat.le_refl _)
  rw [separated_eq_ok]
  constructor
  · rintro ⟨middle, firstFound, othersFound⟩
    obtain ⟨firstTokens, firstDerived, firstAdmitted, firstPasses, firstStops⟩ :=
      (recognizes _ _ _ short).mp firstFound
    obtain ⟨othersTokens, othersDerived, othersAdmitted, othersPasses, stopped, lastStops⟩ :=
      (behind firstPasses _ _ _ (Nat.le_refl _)).mp othersFound
    refine ⟨firstTokens ++ othersTokens, ?_, ?_, firstPasses.trans othersPasses, stopped, ?_⟩
    · exact separatedDerives_iff.mpr ⟨_, _, rfl, firstDerived, othersDerived⟩
    · rw [firstPasses.depth] at othersAdmitted
      exact Bounds.admits_max.mpr ⟨firstAdmitted, othersAdmitted⟩
    · rw [othersPasses.rest] at firstStops
      exact (Language.stops_cons continues othersDerived).mpr ⟨firstStops, lastStops⟩
  · rintro ⟨tokens, derived, admitted, passes, stopped, lastStops⟩
    obtain ⟨firstTokens, othersTokens, rfl, firstDerived, othersDerived⟩ :=
      separatedDerives_iff.mp derived
    obtain ⟨firstAdmitted, othersAdmitted⟩ := Bounds.admits_max.mp admitted
    obtain ⟨firstStops, othersStop⟩ := (Language.stops_cons continues othersDerived).mp lastStops
    obtain ⟨middle, firstPasses, othersPasses⟩ := Cursor.Passes.split passes
    refine ⟨middle, (recognizes _ _ _ short).mpr ⟨_, firstDerived, firstAdmitted, firstPasses, ?_⟩,
      (behind firstPasses _ _ _ (Nat.le_refl _)).mpr
        ⟨_, othersDerived, ?_, othersPasses, stopped, othersStop⟩⟩
    · rwa [othersPasses.rest]
    · rwa [firstPasses.depth]

end Parser

end Separated

end UrlFilter
