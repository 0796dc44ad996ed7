import Mathlib.Order.Bounds.Basic
import UrlFilter.Proofs.Node.Shape

/-!
# Merging into as few comparisons as the order allows

The comparisons of a merged conjunction cut the entries of its terms into blocks. Each block is as
long as it can be: the entry that starts the next one clashes with one of its entries. So no way to
cut the entries has fewer blocks.
-/

namespace UrlFilter

namespace Node

/-- The entries of the comparisons among the nodes, in order. -/
def entries (nodes : List Node) : List (String × Value) :=
  (comparisons nodes).flatten

/-- The two entries use a common operator on the same field. -/
def Clash (first second : String × Value) : Prop :=
  first.1 = second.1 ∧ ∃ tag ∈ first.2.operatorTags, tag ∈ second.2.operatorTags

instance (first second : String × Value) : Decidable (Clash first second) :=
  inferInstanceAs (Decidable (_ ∧ _))

/-- No two of the entries clash. -/
def Compatible (block : List (String × Value)) : Prop :=
  block.Pairwise fun first second => ¬ Clash first second

/-- The blocks are a way to cut the entries into consecutive parts in which no two entries
clash. -/
structure Cuts (entries : List (String × Value)) (blocks : List (List (String × Value))) :
    Prop where
  flatten : blocks.flatten = entries
  nonempty : ∀ block ∈ blocks, block ≠ []
  compatible : ∀ block ∈ blocks, Compatible block

/-- The block could not have been longer: the entry that starts the next one clashes with one of
its entries. -/
def FullBefore (block next : List (String × Value)) : Prop :=
  ∃ first ∈ next.head?, ∃ entry ∈ block, Clash entry first

section Cuts

variable {entries extra : List (String × Value)} {blocks others : List (List (String × Value))}

/-- Where there are no entries, there are no blocks. -/
theorem eq_nil_of_flatten (nonempty : ∀ block ∈ blocks, block ≠ [])
    (nothing : blocks.flatten = []) : blocks = [] := by
  rw [List.eq_nil_iff_forall_not_mem]
  intro block isBlock
  exact nonempty block isBlock (List.flatten_eq_nil_iff.mp nothing block isBlock)

/-- Blocks that could not have been longer are the fewest, even if the other blocks are cut from
more entries in front. -/
theorem length_le_of_fullBefore (nonempty : ∀ block ∈ blocks, block ≠ [])
    (full : blocks.IsChain FullBefore) (compatible : ∀ block ∈ others, Compatible block)
    (same : others.flatten = extra ++ blocks.flatten) : blocks.length ≤ others.length := by
  induction others generalizing extra blocks with
  | nil =>
    have nothing : blocks = [] :=
      eq_nil_of_flatten nonempty (List.append_eq_nil_iff.mp same.symm).2
    rw [nothing]
  | cons other rest inductionHypothesis =>
    obtain ⟨otherCompatible, restCompatible⟩ := List.forall_mem_cons.mp compatible
    cases blocks with
    | nil => exact Nat.zero_le _
    | cons block later =>
      obtain ⟨_, laterNonempty⟩ := List.forall_mem_cons.mp nonempty
      rw [List.flatten_cons, List.flatten_cons, ← List.append_assoc] at same
      rcases List.append_eq_append_iff.mp same with ⟨left, _, further⟩ | ⟨surplus, isOther, ahead⟩
      · -- The other block ends with the first block at the latest.
        exact Nat.succ_le_succ (inductionHypothesis laterNonempty full.tail restCompatible further)
      · -- The other block goes on behind the first block: at most by nothing, since what it would
        -- go on with clashes with an entry of the first block.
        cases surplus with
        | nil =>
          have further : rest.flatten = [] ++ later.flatten := ahead.symm
          exact Nat.succ_le_succ
            (inductionHypothesis laterNonempty full.tail restCompatible further)
        | cons start others =>
          exfalso
          cases later with
          | nil => cases ahead
          | cons next last =>
            obtain ⟨first, isFirst, entry, isEntry, clash⟩ := (List.isChain_cons_cons.mp full).1
            obtain ⟨behind, rfl⟩ := List.head?_eq_some_iff.mp isFirst
            obtain rfl : first = start := (List.cons.inj ahead).1
            rw [isOther, Compatible, List.pairwise_append] at otherCompatible
            exact otherCompatible.2.2 entry (List.mem_append_right _ isEntry) first
              List.mem_cons_self clash

end Cuts

end Node

namespace Merge

open Node

/-- The fields with one more entry: a new field is put at the end, any other entry joins the
operators of its field. -/
def place (fields : Table Value) (entry : String × Value) : Table Value :=
  fields.put entry.1 <|
    match fields.get? entry.1 with
    | none => entry.2
    | some present => combined present entry.2

/-- The fields of one comparison of all the entries. -/
def gather (block : List (String × Value)) : Table Value :=
  block.foldl place []

/-- The values of a field among the entries, in order. -/
def valuesOf (field : String) (block : List (String × Value)) : List Value :=
  (block.filter fun entry => entry.1 = field).map (·.2)

/-- The value that a field gets from several: a single one stays as it is. -/
def combinedAll : List Value → Option Value
  | [] => none
  | first :: others => some (others.foldl combined first)

section Gather

variable {block : List (String × Value)} {field tag : String} {value : Value} {values : List Value}

/-- The last entry is put to the fields of those in front of it. -/
theorem gather_concat (block : List (String × Value)) (entry : String × Value) :
    gather (block ++ [entry]) = place (gather block) entry := by
  simp [gather]

/-- The values of a field are those of its entries. -/
theorem mem_valuesOf : value ∈ valuesOf field block ↔ (field, value) ∈ block := by
  simp [valuesOf]

/-- One more value joins the operators of those before. -/
theorem combinedAll_concat (values : List Value) (value : Value) :
    combinedAll (values ++ [value]) =
      some (match combinedAll values with
        | none => value
        | some present => combined present value) := by
  cases values with
  | nil => rfl
  | cons first others => simp [combinedAll]

/-- The value of a field in a comparison is combined from its values among the entries. -/
theorem get?_gather (block : List (String × Value)) (field : String) :
    (gather block).get? field = combinedAll (valuesOf field block) := by
  induction block using List.reverseRecOn with
  | nil => rfl
  | append_singleton block entry inductionHypothesis =>
    rw [gather_concat, place, Table.get?_put]
    by_cases same : field = entry.1
    · subst same
      have values : valuesOf entry.1 (block ++ [entry]) = valuesOf entry.1 block ++ [entry.2] := by
        simp [valuesOf]
      rw [if_pos rfl, values, combinedAll_concat, inductionHypothesis]
    · have values : valuesOf field (block ++ [entry]) = valuesOf field block := by
        simp [valuesOf, Ne.symm same]
      rw [if_neg same, values, inductionHypothesis]

/-- A combined value uses the operators of both. -/
theorem mem_operatorTags_combined {left right : Value} :
    tag ∈ (combined left right).operatorTags ↔
      tag ∈ left.operatorTags ∨ tag ∈ right.operatorTags :=
  Table.mem_keys_update

/-- A combined value has the operators of all the values. -/
theorem mem_operatorTags_combinedAll (isValue : combinedAll values = some value) :
    tag ∈ value.operatorTags ↔ ∃ part ∈ values, tag ∈ part.operatorTags := by
  induction values using List.reverseRecOn generalizing value with
  | nil => cases isValue
  | append_singleton values last inductionHypothesis =>
    rw [combinedAll_concat] at isValue
    cases before : combinedAll values with
    | none =>
      rw [before] at isValue
      cases isValue
      cases values with
      | nil => simp
      | cons => cases before
    | some present =>
      rw [before] at isValue
      cases isValue
      rw [mem_operatorTags_combined, inductionHypothesis before]
      simp [or_and_right, exists_or]

/-- Two values are in conflict if they use one operator. -/
theorem conflict_eq_true_iff {left right : Value} :
    conflict left right = true ↔ ∃ tag ∈ left.operatorTags, tag ∈ right.operatorTags := by
  simp only [conflict, List.any_eq_true, List.contains_iff_mem]

/-- An entry conflicts with what has been gathered exactly if it clashes with one of the
entries. -/
theorem conflict_gather_iff {entry : String × Value} :
    (∃ present ∈ (gather block).get? entry.1, conflict present entry.2 = true) ↔
      ∃ earlier ∈ block, Clash earlier entry := by
  rw [get?_gather]
  constructor
  · rintro ⟨present, isPresent, conflicting⟩
    obtain ⟨tag, isPresentTag, isTag⟩ := conflict_eq_true_iff.mp conflicting
    obtain ⟨part, isPart, isPartTag⟩ := (mem_operatorTags_combinedAll isPresent).mp isPresentTag
    exact ⟨(entry.1, part), mem_valuesOf.mp isPart, rfl, tag, isPartTag, isTag⟩
  · rintro ⟨⟨field, part⟩, isEarlier, same, tag, isPartTag, isTag⟩
    subst same
    have isPart := mem_valuesOf.mpr isEarlier
    cases present : combinedAll (valuesOf entry.1 block) with
    | none =>
      cases values : valuesOf entry.1 block with
      | nil => simp [values] at isPart
      | cons => simp [values, combinedAll] at present
    | some value =>
      have isPresentTag := (mem_operatorTags_combinedAll present).mpr ⟨part, isPart, isPartTag⟩
      exact ⟨value, rfl, conflict_eq_true_iff.mpr ⟨tag, isPresentTag, isTag⟩⟩

end Gather

/-- The merge has cut the entries: it has finished the comparisons of some blocks, each as long as
it can be, and gathers the entries of a block that still grows. -/
structure HasCut (merge : Merge) (entries : List (String × Value))
    (finished : List (List (String × Value))) (growing : List (String × Value)) : Prop where
  flatten : finished.flatten ++ growing = entries
  done : comparisons merge.done = finished.map gather
  current : merge.current = gather growing
  nonempty : ∀ block ∈ finished, block ≠ []
  compatible : ∀ block ∈ finished ++ [growing], Compatible block
  full : (finished ++ [growing]).IsChain FullBefore

/-- Where nothing has been merged, nothing is cut. -/
theorem empty_hasCut : empty.HasCut [] [] [] where
  flatten := rfl
  done := rfl
  current := rfl
  nonempty := by simp
  compatible := by simp [Compatible]
  full := .singleton []

section HasCut

variable {merge : Merge} {entries growing : List (String × Value)}
  {finished : List (List (String × Value))}

/-- An entry that clashes with one of the growing block starts a new block. -/
theorem HasCut.split (cut : merge.HasCut entries finished growing) {entry : String × Value}
    (clashes : ∃ earlier ∈ growing, Clash earlier entry) :
    (merge.addField entry).HasCut (entries ++ [entry]) (finished ++ [growing]) [entry] := by
  obtain ⟨present, isPresent, conflicting⟩ := conflict_gather_iff.mpr clashes
  have added : merge.addField entry = ⟨merge.done ++ [.comparison merge.current], [entry]⟩ := by
    rw [← cut.current, Option.mem_def] at isPresent
    simp only [addField, isPresent, conflicting, if_true]
  rw [added]
  refine ⟨?_, ?_, rfl, ?_, ?_, ?_⟩
  · rw [List.flatten_concat, cut.flatten]
  · rw [comparisons_append, comparisons_comparison, cut.done, cut.current, List.map_append]
    rfl
  · obtain ⟨earlier, isEarlier, _⟩ := clashes
    exact List.forall_mem_append.mpr
      ⟨cut.nonempty, List.forall_mem_singleton.mpr (List.ne_nil_of_mem isEarlier)⟩
  · exact List.forall_mem_append.mpr
      ⟨cut.compatible, List.forall_mem_singleton.mpr (List.pairwise_singleton _ entry)⟩
  · refine List.isChain_append.mpr ⟨cut.full, .singleton [entry], ?_⟩
    intro block isLast next isNext
    cases isNext
    rw [List.getLast?_concat] at isLast
    cases isLast
    exact ⟨entry, rfl, clashes⟩

/-- Any other entry joins the growing block. -/
theorem HasCut.join (cut : merge.HasCut entries finished growing) {entry : String × Value}
    (calm : ∀ earlier ∈ growing, ¬ Clash earlier entry) :
    (merge.addField entry).HasCut (entries ++ [entry]) finished (growing ++ [entry]) := by
  have added : merge.addField entry = ⟨merge.done, place merge.current entry⟩ := by
    cases isPresent : merge.current.get? entry.1 with
    | none => simp only [addField, place, isPresent]
    | some present =>
      have compatible : conflict present entry.2 = false := by
        rw [← Bool.not_eq_true]
        intro conflicting
        rw [cut.current] at isPresent
        obtain ⟨earlier, isEarlier, clash⟩ :=
          conflict_gather_iff.mp ⟨present, isPresent, conflicting⟩
        exact calm earlier isEarlier clash
      simp only [addField, place, isPresent, compatible, Bool.false_eq_true, if_false]
  obtain ⟨finishedCompatible, growingCompatible⟩ := List.forall_mem_append.mp cut.compatible
  rw [added]
  refine ⟨?_, cut.done, ?_, cut.nonempty, ?_, ?_⟩
  · rw [← List.append_assoc, cut.flatten]
  · rw [gather_concat, cut.current]
  · refine List.forall_mem_append.mpr ⟨finishedCompatible, List.forall_mem_singleton.mpr ?_⟩
    rw [Compatible, List.pairwise_append]
    refine ⟨List.forall_mem_singleton.mp growingCompatible, List.pairwise_singleton _ entry, ?_⟩
    exact fun earlier isEarlier => List.forall_mem_singleton.mpr (calm earlier isEarlier)
  · refine isChain_grow cut.full ?_
    rintro block ⟨first, isFirst, clashes⟩
    exact ⟨first, List.mem_head?_append_of_mem_head? isFirst, clashes⟩

/-- An entry that is added goes to the block that grows or starts the next one. -/
theorem HasCut.addField (cut : merge.HasCut entries finished growing) (entry : String × Value) :
    ∃ finished growing, (merge.addField entry).HasCut (entries ++ [entry]) finished growing := by
  by_cases clashes : ∃ earlier ∈ growing, Clash earlier entry
  · exact ⟨_, _, cut.split clashes⟩
  · exact ⟨_, _, cut.join fun earlier isEarlier clash => clashes ⟨earlier, isEarlier, clash⟩⟩

/-- Entries that are added one after the other leave a cut of all of them. -/
theorem HasCut.addFields (cut : merge.HasCut entries finished growing)
    (fields : List (String × Value)) :
    ∃ finished growing,
      (fields.foldl Merge.addField merge).HasCut (entries ++ fields) finished growing := by
  induction fields generalizing merge entries finished growing with
  | nil => exact ⟨finished, growing, by rwa [List.append_nil]⟩
  | cons entry rest inductionHypothesis =>
    obtain ⟨_, _, added⟩ := cut.addField entry
    rw [List.append_cons]
    exact inductionHypothesis added

/-- A joined node has no entries and leaves the blocks as they are. -/
theorem HasCut.addNode (cut : merge.HasCut entries finished growing) (node : Node) :
    ∃ finished growing,
      (merge.addNode node).HasCut (entries ++ Node.entries [node]) finished growing := by
  cases node with
  | comparison fields =>
    have isFields : Node.entries [.comparison fields] = fields := by simp [Node.entries]
    rw [isFields]
    exact cut.addFields fields
  | logical connector children =>
    refine ⟨finished, growing, ?_, ?_, cut.current, cut.nonempty, cut.compatible, cut.full⟩
    · simp [Node.entries, cut.flatten]
    · simp [Merge.addNode, cut.done]

/-- Nodes that are added one after the other leave a cut of all their entries. -/
theorem HasCut.addNodes (cut : merge.HasCut entries finished growing) (terms : List Node) :
    ∃ finished growing,
      (terms.foldl Merge.addNode merge).HasCut (entries ++ Node.entries terms)
        finished growing := by
  induction terms generalizing merge entries finished growing with
  | nil => exact ⟨finished, growing, by simpa [Node.entries, comparisons] using cut⟩
  | cons term rest inductionHypothesis =>
    obtain ⟨_, _, added⟩ := cut.addNode term
    have all : Node.entries (term :: rest) = Node.entries [term] ++ Node.entries rest := by
      rw [Node.entries, ← List.singleton_append, comparisons_append, List.flatten_append]
      rfl
    rw [all, ← List.append_assoc]
    exact inductionHypothesis added

end HasCut

/-- Only without entries there are no fields. -/
theorem gather_eq_nil_iff {block : List (String × Value)} : gather block = [] ↔ block = [] := by
  constructor
  · intro nothing
    cases block with
    | nil => rfl
    | cons entry rest =>
      have value := get?_gather (entry :: rest) entry.1
      simp [nothing, valuesOf, combinedAll] at value
  · rintro rfl
    rfl

end Merge

namespace Node

variable {terms : List Node} {node : Node}

/-- The comparisons of a merged conjunction are those of blocks that cut the entries of the terms,
each as long as it can be. -/
theorem exists_cuts (terms : List Node) :
    ∃ blocks, Cuts (entries terms) blocks ∧ blocks.IsChain FullBefore ∧
      comparisons (mergedMembers terms) = blocks.map Merge.gather := by
  obtain ⟨finished, growing, cut⟩ := Merge.empty_hasCut.addNodes terms
  have flatten := cut.flatten
  rw [List.nil_append] at flatten
  unfold mergedMembers Merge.members
  split
  · next nothing =>
    have none : growing = [] := by
      rw [cut.current, List.isEmpty_iff, Merge.gather_eq_nil_iff] at nothing
      exact nothing
    refine ⟨finished, ⟨by rw [← flatten, none, List.append_nil], cut.nonempty, ?_⟩,
      (List.isChain_append.mp cut.full).1, cut.done⟩
    exact (List.forall_mem_append.mp cut.compatible).1
  · next something =>
    have some : growing ≠ [] := by
      rw [cut.current, List.isEmpty_iff, Merge.gather_eq_nil_iff] at something
      exact something
    refine ⟨finished ++ [growing], ⟨by rw [List.flatten_concat, flatten], ?_, cut.compatible⟩,
      cut.full, ?_⟩
    · exact List.forall_mem_append.mpr ⟨cut.nonempty, List.forall_mem_singleton.mpr some⟩
    · rw [comparisons_append, comparisons_comparison, cut.done, cut.current, List.map_append]
      rfl

/-- The number of comparisons in a merged conjunction is the least number of blocks. -/
theorem isLeast_length_comparisons (terms : List Node) :
    IsLeast {count | ∃ blocks, Cuts (entries terms) blocks ∧ blocks.length = count}
      (comparisons (mergedMembers terms)).length := by
  obtain ⟨blocks, cuts, full, areBlocks⟩ := exists_cuts terms
  rw [areBlocks, List.length_map]
  refine ⟨⟨blocks, cuts, rfl⟩, ?_⟩
  rintro _ ⟨others, otherCuts, rfl⟩
  have same : others.flatten = [] ++ blocks.flatten := otherCuts.flatten.trans cuts.flatten.symm
  exact length_le_of_fullBefore cuts.nonempty full otherCuts.compatible same

/-- Nodes without joined ones are comparisons. -/
theorem eq_map_comparisons {nodes : List Node} (plain : ∀ node ∈ nodes, node.isComparison = true) :
    nodes = (comparisons nodes).map .comparison := by
  induction nodes with
  | nil => rfl
  | cons node rest inductionHypothesis =>
    obtain ⟨isComparison, restPlain⟩ := List.forall_mem_cons.mp plain
    cases node with
    | comparison fields =>
      rw [← List.singleton_append, comparisons_append, comparisons_comparison, List.map_append,
        ← inductionHypothesis restPlain]
      rfl
    | logical => cases isComparison

/-- A merged conjunction of comparisons has only comparisons. -/
theorem mergedMembers_plain (plain : ∀ term ∈ terms, term.isComparison = true) :
    ∀ member ∈ mergedMembers terms, member.isComparison = true := by
  have joined : joinedNodes (mergedMembers terms) = [] := by
    rw [mergedMembers_joinedNodes, joinedNodes, List.filter_eq_nil_iff]
    intro term isTerm
    simp [plain term isTerm]
  rw [joinedNodes, List.filter_eq_nil_iff] at joined
  intro member isMember
  simpa using joined member isMember

/-- Comparisons whose entries do not clash are merged into one. -/
theorem mergedMembers_of_compatible (plain : ∀ term ∈ terms, term.isComparison = true)
    (filled : entries terms ≠ []) (compatible : Compatible (entries terms)) :
    mergedMembers terms = [.comparison (Merge.gather (entries terms))] := by
  obtain ⟨blocks, cuts, full, areBlocks⟩ := exists_cuts terms
  have whole : [entries terms].flatten = [] ++ blocks.flatten := by
    rw [List.flatten_singleton, cuts.flatten, List.nil_append]
  have single : blocks.length ≤ [entries terms].length :=
    length_le_of_fullBefore cuts.nonempty full (List.forall_mem_singleton.mpr compatible) whole
  have isBlock : blocks = [entries terms] := by
    have flatten := cuts.flatten
    match blocks, single with
    | [], _ => exact absurd flatten.symm filled
    | [block], _ =>
      rw [List.flatten_singleton] at flatten
      rw [flatten]
  rw [eq_map_comparisons (mergedMembers_plain plain), areBlocks, isBlock]
  rfl

/-- Merging succeeds if there are members, and joins them. -/
theorem merge_eq_ok_iff :
    merge terms = .ok node ↔
      mergedMembers terms ≠ [] ∧ node = joinAll .and (mergedMembers terms) := by
  rw [merge, merged]
  split
  · next nothing => simp [List.isEmpty_iff.mp nothing]
  · next something =>
    simp only [Except.ok.injEq, eq_comm (b := node), ne_eq]
    exact (and_iff_right (by simpa using something)).symm

/-- Comparisons of which something is left have entries. -/
theorem entries_ne_nil (plain : ∀ term ∈ terms, term.isComparison = true)
    (nonempty : mergedMembers terms ≠ []) : entries terms ≠ [] := by
  intro nothing
  obtain ⟨blocks, cuts, _, areBlocks⟩ := exists_cuts terms
  have noBlocks : blocks = [] := eq_nil_of_flatten cuts.nonempty (cuts.flatten.trans nothing)
  rw [eq_map_comparisons (mergedMembers_plain plain), areBlocks, noBlocks] at nonempty
  exact nonempty rfl

/-- A conjunction of comparisons is merged into a single one exactly if no two of its entries
clash. -/
theorem merge_single_iff (plain : ∀ term ∈ terms, term.isComparison = true)
    (merges : merge terms = .ok node) :
    (∃ fields, node = .comparison fields) ↔ Compatible (entries terms) := by
  obtain ⟨nonempty, isJoined⟩ := merge_eq_ok_iff.mp merges
  constructor
  · rintro ⟨fields, isSingle⟩
    rcases joinAll_cases .and nonempty with ⟨only, isOnly, _⟩ | ⟨_, isLogical⟩
    · obtain ⟨blocks, cuts, _, areBlocks⟩ := exists_cuts terms
      have members := eq_map_comparisons (mergedMembers_plain plain)
      rw [areBlocks, isOnly] at members
      obtain ⟨block, rfl⟩ : ∃ block, blocks = [block] := by
        rw [← List.length_eq_one_iff]
        simpa using (congrArg List.length members).symm
      rw [← cuts.flatten, List.flatten_singleton]
      exact cuts.compatible block List.mem_cons_self
    · rw [isJoined, isLogical] at isSingle
      cases isSingle
  · intro compatible
    have filled := entries_ne_nil plain nonempty
    rw [mergedMembers_of_compatible plain filled compatible] at isJoined
    exact ⟨_, isJoined⟩

/-- Merging uses as few comparisons as the order of the entries allows. The result is made of
members, a single one or several that are joined, and the number of comparisons among these is
the least number of consecutive blocks into which the entries of the terms can be cut so that no
two entries of a block use a common operator on the same field. If all terms are comparisons, the
result is a single comparison exactly if no two entries do so. -/
theorem merge_fewest (merges : merge terms = .ok node) :
    node = joinAll .and (mergedMembers terms) ∧
    IsLeast {count | ∃ blocks, Cuts (entries terms) blocks ∧ blocks.length = count}
      (comparisons (mergedMembers terms)).length ∧
    ((∀ term ∈ terms, term.isComparison = true) →
      ((∃ fields, node = .comparison fields) ↔ Compatible (entries terms))) := by
  obtain ⟨_, isJoined⟩ := merge_eq_ok_iff.mp merges
  refine ⟨isJoined, isLeast_length_comparisons terms, ?_⟩
  intro plain
  exact merge_single_iff plain merges

/-- A range of a field from two terms, a joined node between them, and two conflicts, each in the
middle of the entries. -/
def scatteredTerms : List Node :=
  [.comparison [("a", .int 1), ("b", .map [("$gt", .int 0)])],
    .logical .or [.comparison [("a", .null)]],
    .comparison [("b", .map [("$lt", .int 9)]), ("a", .int 2)],
    .comparison [("b", .map [("$gt", .int 1)]), ("c", .null)],
    .comparison [("b", .map [("$gt", .int 2)]), ("a", .map [("$ne", .int 3)])]]

/-- The joined node comes first, and three comparisons are the fewest. -/
theorem merge_fewest_scatteredTerms :
    merge scatteredTerms = .ok (.logical .and
      [.logical .or [.comparison [("a", .null)]],
        .comparison [("a", .int 1), ("b", .map [("$gt", .int 0), ("$lt", .int 9)])],
        .comparison [("a", .int 2), ("b", .map [("$gt", .int 1)]), ("c", .null)],
        .comparison [("b", .map [("$gt", .int 2)]), ("a", .map [("$ne", .int 3)])]]) ∧
    IsLeast {count | ∃ blocks, Cuts
      [("a", .int 1), ("b", .map [("$gt", .int 0)]), ("b", .map [("$lt", .int 9)]), ("a", .int 2),
        ("b", .map [("$gt", .int 1)]), ("c", .null), ("b", .map [("$gt", .int 2)]),
        ("a", .map [("$ne", .int 3)])] blocks ∧ blocks.length = count} 3 := by
  have merges : merge scatteredTerms = .ok _ := rfl
  exact ⟨merges, (merge_fewest merges).2.1⟩

end Node

end UrlFilter
