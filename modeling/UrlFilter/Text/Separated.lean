/-!
# Separated text

Text between separators, as the list of its parts. `n` separators make
`n + 1` parts, some of them perhaps empty.
-/

namespace UrlFilter.Text

/-- The parts between the separators, in order. -/
def parts (separator : Char) : List Char → List (List Char)
  | [] => [[]]
  | c :: rest =>
    if c = separator then [] :: parts separator rest
    else (parts separator rest).modifyHead (c :: ·)

/-- The parts are those of the list that is split at the separator. -/
theorem parts_eq_splitOn (separator : Char) (text : List Char) :
    parts separator text = text.splitOn separator := by
  induction text with
  | nil => rfl
  | cons c rest inductionHypothesis =>
    rw [parts, List.splitOn_cons_eq_if_modifyHead, inductionHypothesis]
    simp only [beq_iff_eq]

/-- The parts and the separators between them are all of the text. -/
theorem length_parts (separator : Char) (text : List Char) :
    (parts separator text).flatten.length + (parts separator text).length = text.length + 1 := by
  induction text with
  | nil => rfl
  | cons c rest inductionHypothesis =>
    rw [parts]
    split
    · simp only [List.flatten_cons, List.nil_append, List.length_cons]
      omega
    · cases cut : parts separator rest with
      | nil => simp [cut] at inductionHypothesis
      | cons part others =>
        rw [cut] at inductionHypothesis
        simp only [List.modifyHead_cons, List.flatten_cons, List.length_append, List.length_cons]
          at inductionHypothesis ⊢
        omega

/-- The parts that are not empty. -/
def nonemptyParts (separator : Char) (text : List Char) : List (List Char) :=
  (parts separator text).filter fun part => !part.isEmpty

/-- The text before the first separator and the text after it. Without a separator
all of the text stands before it. -/
def partition (separator : Char) (text : List Char) : List Char × List Char :=
  (text.takeWhile (· != separator), (text.dropWhile (· != separator)).drop 1)

/-- Text without the separator stands before the first one. -/
theorem partition_append {separator : Char} {front : List Char}
    (absent : ∀ c ∈ front, c ≠ separator) (rest : List Char) :
    partition separator (front ++ separator :: rest) = (front, rest) := by
  have plain : ∀ c ∈ front, (c != separator) = true := fun c inside => by simp [absent c inside]
  simp [partition, List.takeWhile_append_of_pos plain, List.dropWhile_append_of_pos plain]

/-- The parts on both sides of a separator are the parts of the text. -/
theorem parts_append (separator : Char) (left right : List Char) :
    parts separator (left ++ separator :: right) =
      parts separator left ++ parts separator right := by
  induction left with
  | nil => simp [parts]
  | cons c rest inductionHypothesis =>
    rw [List.cons_append, parts, parts, inductionHypothesis]
    split
    · rfl
    · cases cut : parts separator rest with
      | nil => simpa [cut] using length_parts separator rest
      | cons => rfl

theorem nonemptyParts_append (separator : Char) (left right : List Char) :
    nonemptyParts separator (left ++ separator :: right) =
      nonemptyParts separator left ++ nonemptyParts separator right := by
  rw [nonemptyParts, parts_append, List.filter_append]
  rfl

/-- The items with a separator between each two. -/
def joined (separator : String) (items : List String) : String :=
  separator.intercalate items

/-- Text that is joined from one or more items has these as its parts, if the separator is in
none of them. -/
theorem parts_joined {separator : Char} {items : List String} (nonempty : items ≠ [])
    (absent : ∀ item ∈ items, separator ∉ item.toList) :
    parts separator (joined separator.toString items).toList = items.map String.toList := by
  rw [parts_eq_splitOn, joined, String.toList_intercalate, Char.toString,
    String.toList_singleton, List.splitOn_intercalate]
  · intro text isText
    obtain ⟨item, isItem, rfl⟩ := List.mem_map.mp isText
    exact absent item isItem
  · simpa using nonempty

/-- The parts of joined items that are not empty are those of the items, one after the other. -/
theorem nonemptyParts_joined_eq_flatMap (separator : Char) (items : List String) :
    nonemptyParts separator (joined separator.toString items).toList =
      items.flatMap fun item => nonemptyParts separator item.toList := by
  induction items with
  | nil => rfl
  | cons first others inductionHypothesis =>
    cases others with
    | nil => simp [joined]
    | cons second rest =>
      have characters : (joined separator.toString (first :: second :: rest)).toList =
          first.toList ++ separator :: (joined separator.toString (second :: rest)).toList := by
        simp [joined, String.intercalate_cons_cons, Char.toString]
      rw [characters, nonemptyParts_append, inductionHypothesis]
      rfl

end UrlFilter.Text
