import Mathlib.Data.List.Induction
import UrlFilter.Table

/-!
# Tables that gather entries

Entries that are written one after the other leave each key in its first place and with its last
value. It makes no difference whether they are made a table of first.
-/

namespace UrlFilter.Table

variable {α : Type} {table : Table α} {entries : List (String × α)} {key later : String}
  {value old last : α}

/-- The table has the keys of the entries in the order in which they occur first, and each of them
has the value of its last entry. -/
structure Gathers (entries : List (String × α)) (table : Table α) : Prop where
  keys : table.keys = (keys entries).eraseDups
  last : ∀ key, table.get? key = get? entries.reverse key

/-- The keys of a table that entries make are those of the entries. -/
theorem mem_keys_ofList : key ∈ (ofList entries).keys ↔ key ∈ keys entries := by
  rw [ofList, mem_keys_update]
  exact or_iff_right List.not_mem_nil

/-- Entries may be written in two parts. -/
theorem update_append (table : Table α) (entries more : List (String × α)) :
    table.update (entries ++ more) = (table.update entries).update more :=
  List.foldl_append

/-- The last entry is written to the table of those in front of it. -/
theorem ofList_concat (entries : List (String × α)) (entry : String × α) :
    ofList (entries ++ [entry]) = (ofList entries).put entry.1 entry.2 := by
  simp [ofList, update]

/-- The table that entries make gathers them. -/
theorem gathers_ofList (entries : List (String × α)) : Gathers entries (ofList entries) := by
  induction entries using List.reverseRecOn with
  | nil => exact ⟨rfl, fun _ => rfl⟩
  | append_singleton entries entry inductionHypothesis =>
    obtain ⟨sameKeys, sameLast⟩ := inductionHypothesis
    constructor
    · have added : keys (entries ++ [entry]) = keys entries ++ [entry.1] := by
        simp [keys]
      rw [ofList_concat, keys_put, sameKeys, added, List.eraseDups_append]
      by_cases before : entry.1 ∈ keys entries <;>
        simp [List.removeAll, before, List.eraseDups_cons]
    · intro key
      rw [ofList_concat, get?_put, sameLast, List.reverse_append, List.reverse_singleton,
        List.singleton_append, get?_cons]

/-- The keys after a key is written are those before and this one. -/
theorem mem_keys_put {other : String} :
    other ∈ (table.put key value).keys ↔ other ∈ table.keys ∨ other = key := by
  have written : other ∈ (table.put key value).keys ↔
      other ∈ table.keys ∨ other ∈ keys [(key, value)] :=
    @mem_keys_update _ table [(key, value)] other
  rw [written]
  exact or_congr_right List.mem_singleton

/-- The last value that is written to a key counts. -/
theorem put_put (table : Table α) (key : String) (old value : α) :
    (table.put key old).put key value = table.put key value := by
  induction table with
  | nil => simp [put]
  | cons entry rest inductionHypothesis =>
    by_cases same : entry.1 = key <;> simp [put, same, inductionHypothesis]

/-- A key that has its place can be written before or after another one. -/
theorem put_comm (placed : key ∈ table.keys) (different : later ≠ key) (value last : α) :
    (table.put later last).put key value = (table.put key value).put later last := by
  induction table with
  | nil => simp [keys] at placed
  | cons entry rest inductionHypothesis =>
    by_cases isKey : entry.1 = key
    · have notLater : entry.1 ≠ later := fun isLater => different (isLater.symm.trans isKey)
      simp [put, isKey, Ne.symm different]
    · have placedBehind : key ∈ keys rest := by
        simpa [keys, Ne.symm isKey] using placed
      by_cases isLater : entry.1 = later
      · simp [put, isLater, different]
      · simp [put, isKey, isLater, inductionHypothesis placedBehind]

/-- A key that has its place can be written before or after entries of other keys. -/
theorem put_update (placed : key ∈ table.keys) (absent : key ∉ keys entries) (value : α) :
    (table.update entries).put key value = (table.put key value).update entries := by
  induction entries generalizing table with
  | nil => rfl
  | cons entry rest inductionHypothesis =>
    have different : entry.1 ≠ key := fun same => absent (by simp [keys, same])
    have absentBehind : key ∉ keys rest := fun inside => absent (List.mem_cons_of_mem _ inside)
    have placedAfter : key ∈ (table.put entry.1 entry.2).keys := mem_keys_put.mpr (.inl placed)
    have further := inductionHypothesis placedAfter absentBehind
    rw [put_comm placed different] at further
    exact further

/-- Writing to a table that is written to another one is writing to that one. -/
theorem update_put (distinct : Distinct entries) (key : String) (value : α) :
    table.update (put entries key value) = (table.update entries).put key value := by
  cases present : get? entries key with
  | none =>
    rw [put_of_get?_eq_none present]
    simp [update]
  | some old =>
    obtain ⟨front, back, rfl, written⟩ := put_of_get?_eq_some present
    have absent : key ∉ keys back := by
      simp only [Distinct, keys, List.map_append, List.map_cons, List.nodup_append,
        List.nodup_cons] at distinct
      exact distinct.2.1.1
    have placed : key ∈ ((table.update front).put key old).keys := mem_keys_put.mpr (.inr rfl)
    rw [written]
    have ahead : ∀ value, table.update (front ++ (key, value) :: back) =
        ((table.update front).put key value).update back := by
      simp [update]
    rw [ahead, ahead, put_update placed absent, put_put]

/-- It makes no difference whether entries are made a table of before they are written. -/
theorem update_ofList (table : Table α) (entries : List (String × α)) :
    table.update (ofList entries) = table.update entries := by
  induction entries using List.reverseRecOn with
  | nil => rfl
  | append_singleton entries entry inductionHypothesis =>
    rw [ofList_concat, update_put (distinct_ofList entries), inductionHypothesis]
    simp [update]

end UrlFilter.Table
