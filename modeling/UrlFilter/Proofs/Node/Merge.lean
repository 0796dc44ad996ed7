import UrlFilter.Node.Merge

/-!
# Merging keeps constraints

A merge moves constraints between comparisons but neither loses nor invents one, and it
leaves the joined nodes as they are. So the merged node holds exactly when all terms do,
and there is one unless all terms are empty.
-/

namespace UrlFilter

namespace Node

/-- The constraints of the comparisons among the nodes. -/
def comparisonConstraints (nodes : List Node) : List Constraint :=
  nodes.flatMap fun
    | .comparison fields => fieldConstraints fields
    | .logical _ _ => []

/-- The joined nodes among the nodes. -/
def joinedNodes (nodes : List Node) : List Node :=
  nodes.filter fun node => !node.isComparison

/-- No operator occurs twice on a field of a comparison. -/
def WellFormed : Node → Prop
  | .comparison fields => ∀ entry ∈ fields, Table.Distinct entry.2.operators
  | .logical _ _ => True

/-- The node constrains a field or joins nodes, and no operator occurs twice on a field. -/
structure Proper (node : Node) : Prop where
  nonempty : node.isEmpty = false
  wellFormed : node.WellFormed

/-- The constraints of two lists of nodes are those of each. -/
@[simp] theorem comparisonConstraints_append (left right : List Node) :
    comparisonConstraints (left ++ right) =
      comparisonConstraints left ++ comparisonConstraints right := by
  simp [comparisonConstraints]

/-- The constraints of a comparison are those of its fields. -/
@[simp] theorem comparisonConstraints_comparison (fields : List (String × Value)) :
    comparisonConstraints [.comparison fields] = fieldConstraints fields := by
  simp [comparisonConstraints]

/-- A joined node keeps its constraints to itself. -/
@[simp] theorem comparisonConstraints_logical (connector : Connector) (children : List Node) :
    comparisonConstraints [.logical connector children] = [] := by
  simp [comparisonConstraints]

/-- The joined nodes of two lists are those of each. -/
@[simp] theorem joinedNodes_append (left right : List Node) :
    joinedNodes (left ++ right) = joinedNodes left ++ joinedNodes right := by
  simp [joinedNodes]

/-- A comparison is no joined node. -/
@[simp] theorem joinedNodes_comparison (fields : List (String × Value)) :
    joinedNodes [.comparison fields] = [] := by
  simp [joinedNodes, isComparison]

/-- A joined node is one. -/
@[simp] theorem joinedNodes_logical (connector : Connector) (children : List Node) :
    joinedNodes [.logical connector children] = [.logical connector children] := by
  simp [joinedNodes, isComparison]

/-- The constraints of two lists of fields are those of each. -/
@[simp] theorem fieldConstraints_append (left right : List (String × Value)) :
    fieldConstraints (left ++ right) = fieldConstraints left ++ fieldConstraints right := by
  simp [fieldConstraints]

/-- A list of nodes holds when the constraints of its comparisons and its joined nodes do. -/
theorem allHold_eq (valuation : Constraint → Bool) (nodes : List Node) :
    allHold valuation nodes =
      ((comparisonConstraints nodes).all valuation &&
        (joinedNodes nodes).all (holds valuation)) := by
  induction nodes with
  | nil => rfl
  | cons node rest inductionHypothesis =>
    have parts := inductionHypothesis
    cases node with
    | comparison fields =>
      rw [allHold, holds, parts, ← List.singleton_append, comparisonConstraints_append,
        joinedNodes_append]
      simp [Bool.and_assoc]
    | logical connector children =>
      rw [allHold, parts, ← List.singleton_append, comparisonConstraints_append,
        joinedNodes_append]
      simp [Bool.and_left_comm]

end Node

namespace Merge

open Node

/-- The constraints that the merge has taken up so far. -/
def constraints (merge : Merge) : List Constraint :=
  comparisonConstraints merge.done ++ fieldConstraints merge.current

/-- Values without a common operator are combined by putting their operators side by side. -/
theorem operators_combined {left right : Value} (compatible : conflict left right = false)
    (distinct : Table.Distinct right.operators) :
    (combined left right).operators = left.operators ++ right.operators := by
  apply Table.update_eq_append _ distinct
  intro tag isRight isLeft
  have common : conflict left right = true :=
    List.any_eq_true.mpr ⟨tag, isLeft, List.contains_iff_mem.mpr isRight⟩
  rw [compatible] at common
  cases common

/-- What becomes of a merge when an entry is added to it. -/
inductive Adds (merge : Merge) (field : String) (value : Value) : Merge → Prop where
  /-- An entry of a new field is put at the end of the growing comparison. -/
  | fresh (absent : field ∉ merge.current.keys) :
      Adds merge field value ⟨merge.done, merge.current ++ [(field, value)]⟩
  /-- An entry with an operator that its field already has starts a new comparison. -/
  | split {front back : Table Value} {old : Value}
      (isCurrent : merge.current = front ++ (field, old) :: back)
      (conflicting : conflict old value = true) :
      Adds merge field value ⟨merge.done ++ [.comparison merge.current], [(field, value)]⟩
  /-- Any other entry joins the operators of its field. -/
  | combine {front back : Table Value} {old : Value}
      (isCurrent : merge.current = front ++ (field, old) :: back)
      (compatible : conflict old value = false) :
      Adds merge field value ⟨merge.done, front ++ (field, combined old value) :: back⟩

/-- An entry is added in one of three ways. -/
theorem addField_adds (merge : Merge) (entry : String × Value) :
    merge.Adds entry.1 entry.2 (merge.addField entry) := by
  obtain ⟨field, value⟩ := entry
  cases present : merge.current.get? field with
  | none =>
    simp only [addField, present, Table.put_of_get?_eq_none present]
    exact .fresh (Table.get?_eq_none_iff.mp present)
  | some old =>
    obtain ⟨front, back, isCurrent, written⟩ := Table.put_of_get?_eq_some present
    cases conflicting : conflict old value with
    | true =>
      simp only [addField, present, conflicting, if_true]
      exact .split isCurrent conflicting
    | false =>
      simp only [addField, present, conflicting, Bool.false_eq_true, if_false, written]
      exact .combine isCurrent conflicting

section Adds

variable {merge after : Merge} {field : String} {value : Value}

/-- Adding an entry adds its constraints. -/
theorem Adds.constraints (adds : merge.Adds field value after)
    (distinct : Table.Distinct value.operators) :
    after.constraints.Perm (merge.constraints ++ fieldConstraints [(field, value)]) := by
  cases adds with
  | fresh => simp [Merge.constraints]
  | split => simp [Merge.constraints]
  | @combine front back old isCurrent compatible =>
    have inMiddle : ∀ middle : Value, fieldConstraints (front ++ (field, middle) :: back) =
        fieldConstraints front ++ (fieldConstraints [(field, middle)] ++
          fieldConstraints back) := by
      intro middle
      rw [← fieldConstraints_append, ← fieldConstraints_append]
      rfl
    have both : fieldConstraints [(field, combined old value)] =
        fieldConstraints [(field, old)] ++ fieldConstraints [(field, value)] := by
      simp [fieldConstraints, operators_combined compatible distinct]
    simp only [Merge.constraints, isCurrent, inMiddle, both, List.append_assoc]
    -- The new constraints stand behind those of their field and move past the fields after it.
    exact ((List.perm_append_comm.append_left _).append_left _).append_left _

/-- Adding an entry finishes no joined node. -/
theorem Adds.joinedNodes (adds : merge.Adds field value after) :
    Node.joinedNodes after.done = Node.joinedNodes merge.done := by
  cases adds with
  | fresh => rfl
  | split => simp
  | combine => rfl

end Adds

/-- Adding entries adds their constraints, one after the other. -/
theorem addFields_constraints (merge : Merge) {fields : List (String × Value)}
    (distinct : ∀ entry ∈ fields, Table.Distinct entry.2.operators) :
    (fields.foldl addField merge).constraints.Perm
      (merge.constraints ++ fieldConstraints fields) := by
  induction fields generalizing merge with
  | nil => simp [fieldConstraints]
  | cons entry rest inductionHypothesis =>
    have first := (addField_adds merge entry).constraints (distinct entry List.mem_cons_self)
    have further := inductionHypothesis (merge.addField entry)
      (fun later isLater => distinct later (List.mem_cons_of_mem entry isLater))
    rw [List.foldl_cons]
    refine further.trans ((first.append_right _).trans ?_)
    rw [List.append_assoc, ← fieldConstraints_append, List.singleton_append]

/-- Adding a node adds the constraints of a comparison and none for a joined node. -/
theorem addNode_constraints (merge : Merge) {node : Node} (wellFormed : node.WellFormed) :
    (merge.addNode node).constraints.Perm (merge.constraints ++ comparisonConstraints [node]) := by
  cases node with
  | comparison fields =>
    rw [comparisonConstraints_comparison]
    exact addFields_constraints merge wellFormed
  | logical connector children => simp [addNode, constraints]

/-- Adding entries finishes no joined node. -/
theorem addFields_joinedNodes (merge : Merge) (fields : List (String × Value)) :
    joinedNodes (fields.foldl addField merge).done = joinedNodes merge.done := by
  induction fields generalizing merge with
  | nil => rfl
  | cons entry rest inductionHypothesis =>
    rw [List.foldl_cons, inductionHypothesis]
    exact (addField_adds merge entry).joinedNodes

/-- Adding nodes adds their constraints. -/
theorem addNodes_constraints (merge : Merge) {terms : List Node}
    (wellFormed : ∀ term ∈ terms, term.WellFormed) :
    (terms.foldl addNode merge).constraints.Perm
      (merge.constraints ++ comparisonConstraints terms) := by
  induction terms generalizing merge with
  | nil => simp [comparisonConstraints]
  | cons term rest inductionHypothesis =>
    have first := addNode_constraints merge (wellFormed term List.mem_cons_self)
    have further := inductionHypothesis (merge.addNode term)
      (fun later isLater => wellFormed later (List.mem_cons_of_mem term isLater))
    rw [List.foldl_cons]
    refine further.trans ((first.append_right _).trans ?_)
    rw [List.append_assoc, ← comparisonConstraints_append, List.singleton_append]

/-- Adding nodes finishes their joined nodes in order. -/
theorem addNodes_joinedNodes (merge : Merge) (terms : List Node) :
    joinedNodes (terms.foldl addNode merge).done =
      joinedNodes merge.done ++ joinedNodes terms := by
  induction terms generalizing merge with
  | nil => simp [joinedNodes]
  | cons term rest inductionHypothesis =>
    rw [List.foldl_cons, inductionHypothesis, ← List.singleton_append, joinedNodes_append,
      ← List.append_assoc]
    cases term with
    | comparison fields => simp [addNode, addFields_joinedNodes]
    | logical connector children => simp [addNode]

end Merge

namespace Node

/-- The comparisons of a merged conjunction state the constraints that its terms state. -/
theorem mergedMembers_constraints {terms : List Node}
    (wellFormed : ∀ term ∈ terms, term.WellFormed) :
    (comparisonConstraints (mergedMembers terms)).Perm (comparisonConstraints terms) := by
  have added := Merge.addNodes_constraints Merge.empty wellFormed
  have members : comparisonConstraints (mergedMembers terms) =
      (terms.foldl Merge.addNode Merge.empty).constraints := by
    unfold mergedMembers Merge.members Merge.constraints
    split
    · next nothing => simp [List.isEmpty_iff.mp nothing, fieldConstraints]
    · simp
  rw [members]
  exact added

/-- A merged conjunction has the joined nodes of its terms, in their order. -/
theorem mergedMembers_joinedNodes (terms : List Node) :
    joinedNodes (mergedMembers terms) = joinedNodes terms := by
  have kept : joinedNodes (terms.foldl Merge.addNode Merge.empty).done = joinedNodes terms :=
    Merge.addNodes_joinedNodes Merge.empty terms
  unfold mergedMembers Merge.members
  split
  · exact kept
  · simpa using kept

/-- A node that is joined with `and` from several holds when all of them do. -/
theorem holds_joinAll_and (valuation : Constraint → Bool) (nodes : List Node) :
    (joinAll .and nodes).holds valuation = allHold valuation nodes := by
  match nodes with
  | [] => rfl
  | [only] => simp [joinAll, allHold]
  | _ :: _ :: _ => rfl

/-- A node that is joined with `or` from one or more holds when one of them does. -/
theorem holds_joinAll_or (valuation : Constraint → Bool) {nodes : List Node}
    (nonempty : nodes ≠ []) :
    (joinAll .or nodes).holds valuation = anyHolds valuation nodes := by
  match nodes with
  | [] => exact absurd rfl nonempty
  | [only] => simp [joinAll, anyHolds]
  | _ :: _ :: _ => rfl

/-- A merged conjunction holds when all its terms hold. -/
theorem holds_merged (valuation : Constraint → Bool) {terms : List Node}
    (wellFormed : ∀ term ∈ terms, term.WellFormed) :
    (merged terms).holds valuation = allHold valuation terms := by
  rw [merged, holds_joinAll_and, allHold_eq, allHold_eq, mergedMembers_joinedNodes,
    (mergedMembers_constraints wellFormed).all_eq]

/-- The constraints of several nodes are those of their comparisons and of their joined
nodes. -/
theorem childConstraints_perm (nodes : List Node) :
    (childConstraints nodes).Perm
      (comparisonConstraints nodes ++ (joinedNodes nodes).flatMap constraints) := by
  induction nodes with
  | nil => exact .refl []
  | cons node rest inductionHypothesis =>
    rw [childConstraints, ← List.singleton_append, comparisonConstraints_append,
      joinedNodes_append, List.flatMap_append]
    refine (inductionHypothesis.append_left _).trans ?_
    cases node with
    | comparison fields => simp [constraints]
    | logical connector children =>
      -- The constraints of the joined node move behind those of the later comparisons.
      simpa [constraints] using List.perm_append_comm_assoc _ _ _

/-- A node that is joined from several has the constraints of all of them. -/
theorem constraints_joinAll (connector : Connector) (nodes : List Node) :
    (joinAll connector nodes).constraints = childConstraints nodes := by
  match nodes with
  | [] => rfl
  | [only] => simp [joinAll, childConstraints]
  | _ :: _ :: _ => rfl

/-- A merged conjunction has the constraints of its terms. -/
theorem constraints_merged {terms : List Node} (wellFormed : ∀ term ∈ terms, term.WellFormed) :
    (merged terms).constraints.Perm (childConstraints terms) := by
  rw [merged, constraints_joinAll]
  refine (childConstraints_perm _).trans (.trans ?_ (childConstraints_perm terms).symm)
  rw [mergedMembers_joinedNodes]
  exact (mergedMembers_constraints wellFormed).append_right _

end Node

namespace Merge

/-- The merge has taken up nothing. -/
def Bare (merge : Merge) : Prop :=
  merge.done = [] ∧ merge.current = []

/-- The finished members are proper, and no operator occurs twice on a field of the
growing comparison. -/
structure Proper (merge : Merge) : Prop where
  done : ∀ member ∈ merge.done, member.Proper
  current : ∀ entry ∈ merge.current, Table.Distinct entry.2.operators

/-- What is finished next is proper too. -/
theorem Proper.finish {merge : Merge} (proper : merge.Proper) {node : Node} (last : node.Proper) :
    ∀ member ∈ merge.done ++ [node], member.Proper :=
  List.forall_mem_append.mpr ⟨proper.done, List.forall_mem_singleton.mpr last⟩

section Adds

variable {merge after : Merge} {field : String} {value : Value}

/-- An entry is taken up. -/
theorem Adds.not_bare (adds : merge.Adds field value after) : ¬ after.Bare := by
  rintro ⟨_, nothing⟩
  cases adds <;> simp at nothing

/-- A comparison is finished only when it has an entry, and operators are put side by side
only when they are different. -/
theorem Adds.proper (adds : merge.Adds field value after) (proper : merge.Proper)
    (distinct : Table.Distinct value.operators) : after.Proper := by
  cases adds with
  | fresh =>
    exact ⟨proper.done,
      List.forall_mem_append.mpr ⟨proper.current, List.forall_mem_singleton.mpr distinct⟩⟩
  | split isCurrent =>
    have nonempty : (Node.comparison merge.current).isEmpty = false := by
      simp [Node.isEmpty, isCurrent]
    exact ⟨proper.finish ⟨nonempty, proper.current⟩, List.forall_mem_singleton.mpr distinct⟩
  | @combine front back old isCurrent compatible =>
    have all := proper.current
    rw [isCurrent] at all
    have oldDistinct : Table.Distinct old.operators := all (field, old) (by simp)
    have bothDistinct : Table.Distinct (combined old value).operators :=
      Table.distinct_update oldDistinct value.operators
    refine ⟨proper.done, ?_⟩
    rw [List.forall_mem_append, List.forall_mem_cons] at all ⊢
    exact ⟨all.1, bothDistinct, all.2.2⟩

end Adds

/-- Entries are taken up one after the other. -/
theorem addFields_bare_iff {merge : Merge} {fields : List (String × Value)} :
    (fields.foldl addField merge).Bare ↔ merge.Bare ∧ fields = [] := by
  induction fields generalizing merge with
  | nil => simp
  | cons entry rest inductionHypothesis =>
    rw [List.foldl_cons, inductionHypothesis]
    simp [(addField_adds merge entry).not_bare]

/-- Adding fields that use no operator twice keeps what has been merged proper. -/
theorem addFields_proper {merge : Merge} (proper : merge.Proper) {fields : List (String × Value)}
    (distinct : ∀ entry ∈ fields, Table.Distinct entry.2.operators) :
    (fields.foldl addField merge).Proper := by
  refine List.foldlRecOn fields addField proper ?_
  intro merge proper entry isEntry
  exact (addField_adds merge entry).proper proper (distinct entry isEntry)

/-- All nodes are taken up but empty ones. -/
theorem addNodes_bare_iff {merge : Merge} {terms : List Node} :
    (terms.foldl addNode merge).Bare ↔ merge.Bare ∧ ∀ term ∈ terms, term.isEmpty = true := by
  induction terms generalizing merge with
  | nil => simp
  | cons term rest inductionHypothesis =>
    rw [List.foldl_cons, inductionHypothesis, List.forall_mem_cons, ← and_assoc]
    refine and_congr_left fun _ => ?_
    cases term with
    | comparison fields => simp [addNode, addFields_bare_iff, Node.isEmpty]
    | logical connector children => simp [addNode, Bare, Node.isEmpty]

/-- Adding nodes that use no operator twice keeps what has been merged proper. -/
theorem addNodes_proper {merge : Merge} (proper : merge.Proper) {terms : List Node}
    (wellFormed : ∀ term ∈ terms, term.WellFormed) : (terms.foldl addNode merge).Proper := by
  refine List.foldlRecOn terms addNode proper ?_
  intro merge proper term isTerm
  have termWellFormed := wellFormed term isTerm
  cases term with
  | comparison fields => exact addFields_proper proper termWellFormed
  | logical connector children => exact ⟨proper.finish ⟨rfl, trivial⟩, proper.current⟩

end Merge

namespace Node

/-- Nothing is left of a conjunction exactly if all its terms are empty. -/
theorem mergedMembers_eq_nil_iff {terms : List Node} :
    mergedMembers terms = [] ↔ ∀ term ∈ terms, term.isEmpty = true := by
  have bare : (terms.foldl Merge.addNode Merge.empty).Bare ↔
      ∀ term ∈ terms, term.isEmpty = true := by
    rw [Merge.addNodes_bare_iff]
    exact and_iff_right ⟨rfl, rfl⟩
  rw [← bare]
  unfold mergedMembers Merge.members Merge.Bare
  split
  · next nothing => simp [List.isEmpty_iff.mp nothing]
  · next something =>
    simp only [List.append_eq_nil_iff, List.cons_ne_nil, and_false, false_iff, not_and]
    intro _ nothing
    exact something (List.isEmpty_iff.mpr nothing)

/-- The members of a merged conjunction are proper. -/
theorem mergedMembers_proper {terms : List Node} (wellFormed : ∀ term ∈ terms, term.WellFormed) :
    ∀ member ∈ mergedMembers terms, member.Proper := by
  have start : Merge.empty.Proper := by
    constructor <;> simp [Merge.empty]
  have proper : (terms.foldl Merge.addNode Merge.empty).Proper :=
    Merge.addNodes_proper start wellFormed
  unfold mergedMembers Merge.members
  split
  · exact proper.done
  · next something =>
    exact proper.finish ⟨by simpa [isEmpty] using something, proper.current⟩

/-- Joining proper nodes gives a proper node. -/
theorem joinAll_proper (connector : Connector) {nodes : List Node} (nonempty : nodes ≠ [])
    (proper : ∀ node ∈ nodes, node.Proper) : (joinAll connector nodes).Proper := by
  match nodes with
  | [] => exact absurd rfl nonempty
  | [only] => exact proper only List.mem_cons_self
  | _ :: _ :: _ => exact ⟨rfl, trivial⟩

section Proper

variable {terms : List Node}

/-- Something is left of a conjunction of proper terms. -/
theorem mergedMembers_ne_nil (nonempty : terms ≠ []) (proper : ∀ term ∈ terms, term.Proper) :
    mergedMembers terms ≠ [] := by
  rw [Ne, mergedMembers_eq_nil_iff]
  intro empty
  obtain ⟨first, rest, rfl⟩ := List.exists_cons_of_ne_nil nonempty
  have filled := (proper first List.mem_cons_self).nonempty
  simp [empty first List.mem_cons_self] at filled

/-- A conjunction of proper terms is merged. -/
theorem merge_eq_ok (nonempty : terms ≠ []) (proper : ∀ term ∈ terms, term.Proper) :
    merge terms = .ok (merged terms) := by
  have something := mergedMembers_ne_nil nonempty proper
  simp [merge, something]

/-- A merged conjunction of proper terms is proper. -/
theorem merged_proper (nonempty : terms ≠ []) (proper : ∀ term ∈ terms, term.Proper) :
    (merged terms).Proper :=
  joinAll_proper .and (mergedMembers_ne_nil nonempty proper)
    (mergedMembers_proper fun term isTerm => (proper term isTerm).wellFormed)

end Proper

/-- Merging fails exactly if every term is a comparison of no fields. -/
theorem merge_eq_error_iff {terms : List Node} :
    merge terms = .error ⟨⟩ ↔ ∀ term ∈ terms, term = .comparison [] := by
  have isEmpty : ∀ term : Node, term.isEmpty = true ↔ term = .comparison [] := by
    intro term
    cases term <;> simp [Node.isEmpty]
  simp only [← isEmpty, ← mergedMembers_eq_nil_iff, ← List.isEmpty_iff, merge]
  split <;> simp_all

/-- Several nodes are joined, and a single one stands for itself. -/
theorem joinAll_cases (connector : Connector) {nodes : List Node} (nonempty : nodes ≠ []) :
    (∃ only, nodes = [only] ∧ joinAll connector nodes = only) ∨
      2 ≤ nodes.length ∧ joinAll connector nodes = .logical connector nodes := by
  match nodes with
  | [] => exact absurd rfl nonempty
  | [only] => exact .inl ⟨only, rfl, rfl⟩
  | first :: second :: others => exact .inr ⟨by simp, rfl⟩

/-- Merging neither loses nor invents a constraint. It fails exactly if every term is a
comparison of no fields. Otherwise there are members, of which a single one is the result and
several are joined: their joined nodes are those of the terms, in order, none of their
comparisons is empty, and these state the constraints of the comparisons among the terms, each
as often as there. -/
theorem merge_keeps_constraints {terms : List Node}
    (wellFormed : ∀ term ∈ terms, term.WellFormed) :
    (merge terms = .error ⟨⟩ ↔ ∀ term ∈ terms, term = .comparison []) ∧
    ((∃ term ∈ terms, term ≠ .comparison []) →
      ∃ members : List Node,
        ((∃ only, members = [only] ∧ merge terms = .ok only) ∨
          2 ≤ members.length ∧ merge terms = .ok (.logical .and members)) ∧
        joinedNodes members = joinedNodes terms ∧
        (∀ fields, .comparison fields ∈ members → fields ≠ []) ∧
        (comparisonConstraints members).Perm (comparisonConstraints terms)) := by
  refine ⟨merge_eq_error_iff, ?_⟩
  rintro ⟨term, isTerm, filled⟩
  have nonempty : mergedMembers terms ≠ [] := by
    rw [Ne, mergedMembers_eq_nil_iff]
    intro allEmpty
    have empty := allEmpty term isTerm
    cases term <;> simp_all [Node.isEmpty]
  have success : merge terms = .ok (merged terms) := by
    simp [merge, nonempty]
  refine ⟨mergedMembers terms, ?_, mergedMembers_joinedNodes terms, ?_,
    mergedMembers_constraints wellFormed⟩
  · rw [success, merged]
    rcases joinAll_cases .and nonempty with ⟨only, single, isOnly⟩ | ⟨several, isJoined⟩
    · exact .inl ⟨only, single, by rw [isOnly]⟩
    · exact .inr ⟨several, by rw [isJoined]⟩
  · intro fields isMember
    have proper := mergedMembers_proper wellFormed _ isMember
    simpa [Node.isEmpty] using proper.nonempty

/-- A comparison of no fields, an operator map without operators that takes up a plain value,
a joined node between comparisons, and two constraints on one field by one operator. -/
def mixedTerms : List Node :=
  [.comparison [], .comparison [("a", .map []), ("b", .int 1)],
    .logical .or [.comparison [("c", .null)]],
    .comparison [("a", .text "x"), ("b", .map [("$gt", .int 0), ("$eq", .int 2)])]]

/-- The empty comparison and the empty map leave nothing, and each constraint is kept once. -/
theorem merge_keeps_constraints_mixedTerms :
    ∃ members, merge mixedTerms = .ok (.logical .and members) ∧
      joinedNodes members = [.logical .or [.comparison [("c", .null)]]] ∧
      (comparisonConstraints members).Perm
        [⟨"b", "$eq", .int 1⟩, ⟨"a", "$eq", .text "x"⟩, ⟨"b", "$gt", .int 0⟩,
          ⟨"b", "$eq", .int 2⟩] := by
  have wellFormed : ∀ term ∈ mixedTerms, term.WellFormed := by
    simp [mixedTerms, WellFormed, Table.Distinct, Table.keys, Value.operators, or_imp, forall_and]
  have filled : ∃ term ∈ mixedTerms, term ≠ .comparison [] := by
    simp [mixedTerms]
  have success : merge mixedTerms = .ok (.logical .and
      [.logical .or [.comparison [("c", .null)]],
        .comparison [("a", .map [("$eq", .text "x")]), ("b", .int 1)],
        .comparison [("b", .map [("$gt", .int 0), ("$eq", .int 2)])]]) := by
    rfl
  obtain ⟨members, result, joined, _, constraints⟩ := (merge_keeps_constraints wellFormed).2 filled
  rcases result with ⟨only, rfl, isOnly⟩ | ⟨_, isMembers⟩
  · rw [success] at isOnly
    cases isOnly
    simp [joinedNodes, mixedTerms, isComparison] at joined
  · exact ⟨members, isMembers, joined, constraints⟩

end Node

end UrlFilter
