/-!
# Tables in insertion order

A table maps text keys to values and lists them in the order in which the keys were
first written. Writing to a key that is present keeps its place.
-/

namespace UrlFilter

/-- Entries in the order of their first insertion. -/
abbrev Table (α : Type) := List (String × α)

namespace Table

variable {α : Type}

/-- The keys, in order. -/
def keys (table : Table α) : List String :=
  table.map (·.1)

/-- The value at a key. -/
def get? (table : Table α) (key : String) : Option α :=
  table.lookup key

/-- The table has an entry for the key. -/
def contains (table : Table α) (key : String) : Bool :=
  (table.get? key).isSome

/-- The table with a value written to a key: in the place of the old value, or at the
end if the key is new. -/
def put : Table α → String → α → Table α
  | [], key, value => [(key, value)]
  | (present, old) :: rest, key, value =>
    if present = key then (key, value) :: rest else (present, old) :: put rest key value

/-- The table after entries are written to it, one after the other. -/
def update (table : Table α) (entries : List (String × α)) : Table α :=
  entries.foldl (fun current entry => put current entry.1 entry.2) table

/-- The table that entries make: a repeated key has its first place and last value. -/
def ofList (entries : List (String × α)) : Table α :=
  update [] entries

/-- No key occurs twice. -/
def Distinct (table : Table α) : Prop :=
  table.keys.Nodup

instance (table : Table α) : Decidable table.Distinct :=
  inferInstanceAs (Decidable table.keys.Nodup)

@[simp] theorem get?_nil (key : String) : get? ([] : Table α) key = none :=
  rfl

theorem get?_cons (present : String) (old : α) (rest : Table α) (key : String) :
    get? ((present, old) :: rest) key = if key = present then some old else get? rest key := by
  by_cases same : key = present
  · simp [get?, same]
  · simp [get?, List.lookup_cons, same, beq_eq_false_iff_ne.mpr same]

/-- Only the written key has a new value. -/
theorem get?_put (table : Table α) (key : String) (value : α) (other : String) :
    (table.put key value).get? other = if other = key then some value else table.get? other := by
  induction table with
  | nil => simp [put, get?_cons]
  | cons entry rest inductionHypothesis =>
    obtain ⟨present, old⟩ := entry
    by_cases same : present = key
    · subst same
      by_cases equal : other = present <;> simp [put, get?_cons, equal]
    · by_cases equal : other = present
      · subst equal
        simp [put, get?_cons, same]
      · simp [put, get?_cons, same, equal, inductionHypothesis]

/-- Writing keeps the keys in their places and adds a new key at the end. -/
theorem keys_put (table : Table α) (key : String) (value : α) :
    (table.put key value).keys = if key ∈ table.keys then table.keys else table.keys ++ [key] := by
  induction table with
  | nil => simp [put, keys]
  | cons entry rest inductionHypothesis =>
    obtain ⟨present, old⟩ := entry
    by_cases same : present = key
    · simp [put, keys, same]
    · have different : key ≠ present := fun equal => same equal.symm
      by_cases inside : key ∈ keys rest
      · rw [if_pos inside] at inductionHypothesis
        simp_all [put, keys]
      · rw [if_neg inside] at inductionHypothesis
        simp_all [put, keys]

/-- A key has no value exactly if it is not among the keys. -/
theorem get?_eq_none_iff {table : Table α} {key : String} :
    table.get? key = none ↔ key ∉ table.keys := by
  induction table with
  | nil => simp [keys]
  | cons entry rest inductionHypothesis =>
    obtain ⟨present, old⟩ := entry
    rw [get?_cons]
    by_cases same : key = present
    · simp [same, keys]
    · simpa [same, keys] using inductionHypothesis

/-- A new key is written at the end. -/
theorem put_of_get?_eq_none {table : Table α} {key : String} (fresh : table.get? key = none)
    (value : α) : table.put key value = table ++ [(key, value)] := by
  induction table with
  | nil => rfl
  | cons entry rest inductionHypothesis =>
    obtain ⟨present, old⟩ := entry
    rw [get?_cons] at fresh
    by_cases same : key = present
    · simp [same] at fresh
    · rw [if_neg same] at fresh
      simp [put, Ne.symm same, inductionHypothesis fresh]

/-- A key that is present keeps its place when it is written. -/
theorem put_of_get?_eq_some {table : Table α} {key : String} {old : α}
    (present : table.get? key = some old) :
    ∃ front back, table = front ++ (key, old) :: back ∧
      ∀ value, table.put key value = front ++ (key, value) :: back := by
  induction table with
  | nil => simp at present
  | cons entry rest inductionHypothesis =>
    obtain ⟨first, value⟩ := entry
    rw [get?_cons] at present
    by_cases same : key = first
    · rw [if_pos same] at present
      cases present
      exact ⟨[], rest, by rw [same]; rfl, fun value => by simp [put, same]⟩
    · rw [if_neg same] at present
      obtain ⟨front, back, rfl, written⟩ := inductionHypothesis present
      exact ⟨(first, value) :: front, back, rfl,
        fun other => by simp [put, Ne.symm same, written]⟩

/-- Entries with new and distinct keys are written at the end. -/
theorem update_eq_append {table : Table α} {entries : List (String × α)}
    (fresh : ∀ key ∈ keys entries, key ∉ table.keys) (distinct : Distinct entries) :
    table.update entries = table ++ entries := by
  induction entries generalizing table with
  | nil => simp [update]
  | cons entry rest inductionHypothesis =>
    obtain ⟨key, value⟩ := entry
    have absent : key ∉ table.keys := fresh key (by simp [keys])
    simp only [Distinct, keys, List.map_cons, List.nodup_cons] at distinct
    have further : (table.put key value).update rest = table.put key value ++ rest := by
      apply inductionHypothesis _ distinct.2
      intro later isLater
      rw [keys_put, if_neg absent, List.mem_append, not_or]
      refine ⟨fresh later (by simp only [keys, List.map_cons]; exact .tail _ isLater), ?_⟩
      intro same
      rw [List.mem_singleton.mp same] at isLater
      exact distinct.1 isLater
    have written := put_of_get?_eq_none (get?_eq_none_iff.mpr absent) value
    rw [written] at further
    simpa [update, written] using further

/-- An entry after a key is written is the written one or was there before. -/
theorem mem_put {table : Table α} {key : String} {value : α} {entry : String × α}
    (isEntry : entry ∈ table.put key value) : entry = (key, value) ∨ entry ∈ table := by
  induction table with
  | nil => exact .inl (List.mem_singleton.mp isEntry)
  | cons first rest inductionHypothesis =>
    obtain ⟨present, old⟩ := first
    by_cases same : present = key
    · rw [put, if_pos same] at isEntry
      exact (List.mem_cons.mp isEntry).imp_right (.tail _)
    · rw [put, if_neg same] at isEntry
      rcases List.mem_cons.mp isEntry with isFirst | later
      · exact .inr (isFirst ▸ List.mem_cons_self)
      · exact (inductionHypothesis later).imp_right (.tail _)

/-- An entry after entries are written is one of them or was there before. -/
theorem mem_update {table : Table α} {entries : List (String × α)} {entry : String × α}
    (isEntry : entry ∈ table.update entries) : entry ∈ entries ∨ entry ∈ table := by
  induction entries generalizing table with
  | nil => exact .inr isEntry
  | cons first rest inductionHypothesis =>
    rcases inductionHypothesis isEntry with later | earlier
    · exact .inl (.tail _ later)
    · rcases mem_put earlier with isFirst | before
      · exact .inl (isFirst ▸ List.mem_cons_self)
      · exact .inr before

/-- The keys after entries are written are those before and those of the entries. -/
theorem mem_keys_update {table : Table α} {entries : List (String × α)} {key : String} :
    key ∈ (table.update entries).keys ↔ key ∈ table.keys ∨ key ∈ keys entries := by
  induction entries generalizing table with
  | nil => simp [update, keys]
  | cons first rest inductionHypothesis =>
    have further : key ∈ ((table.put first.1 first.2).update rest).keys ↔
        key ∈ (table.put first.1 first.2).keys ∨ key ∈ keys rest := inductionHypothesis
    have written : key ∈ (table.put first.1 first.2).keys ↔ key ∈ table.keys ∨ key = first.1 := by
      rw [keys_put]
      split
      · next inside =>
        constructor
        · exact .inl
        · rintro (before | rfl)
          · exact before
          · exact inside
      · rw [List.mem_append, List.mem_singleton]
    rw [written] at further
    simpa [update, keys, or_assoc] using further

/-- A table in which each of some keys gets the same value has that value at these keys
and nothing else. -/
theorem mem_ofList_map {keys : List String} {value : α} {entry : String × α} :
    entry ∈ ofList (keys.map fun key => (key, value)) ↔ entry.1 ∈ keys ∧ entry.2 = value := by
  have written : ∀ {entry : String × α}, entry ∈ ofList (keys.map fun key => (key, value)) →
      entry.1 ∈ keys ∧ entry.2 = value := by
    intro entry isEntry
    rcases mem_update isEntry with isWritten | before
    · obtain ⟨key, isKey, rfl⟩ := List.mem_map.mp isWritten
      exact ⟨isKey, rfl⟩
    · exact absurd before List.not_mem_nil
  constructor
  · exact written
  · rintro ⟨isKey, isValue⟩
    have inside : entry.1 ∈ Table.keys (ofList (keys.map fun key => (key, value))) := by
      rw [ofList, mem_keys_update]
      right
      simpa [Table.keys] using isKey
    obtain ⟨other, isOther, sameKey⟩ := List.mem_map.mp inside
    have same : other = entry :=
      Prod.ext sameKey ((written isOther).2.trans isValue.symm)
    exact same ▸ isOther

theorem distinct_nil : Distinct ([] : Table α) := by
  simp [Distinct, keys]

/-- Writing never makes a key occur twice. -/
theorem distinct_put {table : Table α} (distinct : table.Distinct) (key : String) (value : α) :
    (table.put key value).Distinct := by
  unfold Distinct at *
  rw [keys_put]
  by_cases inside : key ∈ table.keys
  · simpa [inside] using distinct
  · simp only [inside, if_false]
    rw [List.nodup_append]
    refine ⟨distinct, by simp, fun member isMember last isLast => ?_⟩
    rintro rfl
    exact inside (by simpa using (List.mem_singleton.mp isLast) ▸ isMember)

/-- Writing entries one after the other never makes a key occur twice. -/
theorem distinct_update {table : Table α} (distinct : table.Distinct)
    (entries : List (String × α)) : (table.update entries).Distinct := by
  induction entries generalizing table with
  | nil => exact distinct
  | cons entry rest inductionHypothesis =>
    exact inductionHypothesis (distinct_put distinct entry.1 entry.2)

/-- A table that is made of entries has no key twice. -/
theorem distinct_ofList (entries : List (String × α)) : (ofList entries).Distinct :=
  distinct_update distinct_nil entries

/-- The entries of a table without repeated keys are the values at its keys. -/
theorem mem_iff_get?_eq_some {table : Table α} (distinct : table.Distinct) {key : String}
    {value : α} : (key, value) ∈ table ↔ table.get? key = some value := by
  induction table with
  | nil => simp
  | cons entry rest inductionHypothesis =>
    obtain ⟨present, old⟩ := entry
    simp only [Distinct, keys, List.map_cons, List.nodup_cons] at distinct
    rw [get?_cons, List.mem_cons]
    by_cases same : key = present
    · subst same
      have notLater : (key, value) ∉ rest := fun isEntry => distinct.1 (List.mem_map_of_mem isEntry)
      simp [notLater, eq_comm]
    · rw [if_neg same, ← inductionHypothesis distinct.2]
      simp [same]

/-- Two tables without repeated keys that have the same values at all keys have the same
entries. -/
theorem perm_of_get?_eq {first second : Table α} (firstDistinct : first.Distinct)
    (secondDistinct : second.Distinct) (same : ∀ key, first.get? key = second.get? key) :
    first.Perm second := by
  have nodup : ∀ {table : Table α}, table.Distinct → table.Nodup := fun distinct =>
    List.Pairwise.of_map (·.1) (fun _ _ differ equal => differ (congrArg _ equal)) distinct
  refine (List.perm_ext_iff_of_nodup (nodup firstDistinct) (nodup secondDistinct)).mpr ?_
  rintro ⟨key, value⟩
  rw [mem_iff_get?_eq_some firstDistinct, mem_iff_get?_eq_some secondDistinct, same]

end Table

end UrlFilter
