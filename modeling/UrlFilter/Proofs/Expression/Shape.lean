import UrlFilter.Proofs.Filter
import UrlFilter.Proofs.Expression.Source
import UrlFilter.Proofs.Node.Shape

/-!
# The shape of a filter's tree

Every field that a filter names is a word of its text, and every clause is a comparison that
constrains its fields by literals. Merging and joining keep the shape, so the whole tree has it.
-/

namespace UrlFilter

/-- One of the tokens is a word with the name for its text. -/
def NamedIn (tokens : List Token) (name : String) : Prop :=
  ∃ token ∈ tokens, token.kind = .word ∧ token.text = name

section Named

variable {tokens others : List Token} {name : String}

/-- A field that some tokens name is named in any list that has these tokens. -/
theorem NamedIn.mono (named : NamedIn tokens name) (included : tokens ⊆ others) :
    NamedIn others name := by
  obtain ⟨token, isToken, isWord, spelled⟩ := named
  exact ⟨token, included isToken, isWord, spelled⟩

/-- The token of a field names it. -/
theorem FieldDerives.named (derived : FieldDerives name tokens) : NamedIn tokens name := by
  obtain ⟨isWord⟩ := derived
  exact ⟨_, List.mem_singleton_self _, isWord, rfl⟩

/-- The fields of a list are words among its tokens. -/
theorem SeparatedDerives.named {first : String} {rest : List String} {separator : Kind}
    (derived : SeparatedDerives separator FieldDerives first rest tokens) :
    ∀ name ∈ first :: rest, NamedIn tokens name := by
  induction derived with
  | last derived =>
    intro name isName
    rw [List.mem_singleton.mp isName]
    exact derived.named
  | more derived _ _ inductionHypothesis =>
    rw [List.forall_mem_cons]
    constructor
    · exact derived.named.mono (List.subset_append_left _ _)
    · intro name isLater
      refine (inductionHypothesis name isLater).mono ?_
      exact fun _ isToken => List.mem_append_right _ (.tail _ isToken)

/-- The fields that a clause uses are words among its tokens. -/
theorem Clause.Derives.named {clause : Clause} (derived : clause.Derives tokens) :
    ∀ mark ∈ clause.marks, NamedIn tokens mark.1 := by
  intro mark isMark
  cases derived with
  | between _ _ _ fieldDerived =>
    simp only [Clause.marks, List.mem_cons, List.not_mem_nil, or_false] at isMark
    rcases isMark with rfl | rfl <;> exact fieldDerived.named.mono (by simp)
  | presence _ _ _ fields =>
    obtain ⟨name, isName, rfl⟩ := List.mem_map.mp isMark
    exact (fields.named name isName).mono fun _ isToken => .tail _ (.tail _ isToken)
  | within fieldDerived | outside fieldDerived | comparison fieldDerived =>
    rw [List.mem_singleton.mp isMark]
    exact fieldDerived.named.mono (by simp)

end Named

mutual

/-- The fields that a term uses are words among its tokens. -/
theorem Term.Derives.named {term : Term} {tokens : List Token} :
    Term.Derives term tokens → ∀ mark ∈ term.marks, NamedIn tokens mark.1
  | .clause derived => derived.named
  | .group _ derived _ => fun mark isMark =>
    (derived.named mark isMark).mono fun token isToken => by simp [isToken]

/-- The fields that a conjunction uses are words among its tokens. -/
theorem Conjunction.Derives.named {conjunction : Conjunction} {tokens : List Token} :
    Conjunction.Derives conjunction tokens →
      ∀ mark ∈ conjunction.marks, NamedIn tokens mark.1
  | .single derived => derived.named
  | .and derived _ further => List.forall_mem_append.mpr
    ⟨fun mark isMark => (derived.named mark isMark).mono (List.subset_append_left _ _),
      fun mark isMark => (further.named mark isMark).mono fun _ isToken =>
        List.mem_append_right _ (.tail _ isToken)⟩

/-- The fields that a disjunction uses are words among its tokens. -/
theorem Disjunction.Derives.named {disjunction : Disjunction} {tokens : List Token} :
    Disjunction.Derives disjunction tokens →
      ∀ mark ∈ disjunction.marks, NamedIn tokens mark.1
  | .single derived => derived.named
  | .or derived _ further => List.forall_mem_append.mpr
    ⟨fun mark isMark => (derived.named mark isMark).mono (List.subset_append_left _ _),
      fun mark isMark => (further.named mark isMark).mono fun _ isToken =>
        List.mem_append_right _ (.tail _ isToken)⟩

end

/-- A word of a text is a field name. -/
theorem NamedIn.isFieldName {text name : String} {tokens : List Token}
    (named : NamedIn tokens name) (scanned : tokenize text = .ok tokens) : IsFieldName name := by
  obtain ⟨token, isToken, isWord, rfl⟩ := named
  obtain ⟨_, _, taken⟩ := takenFrom_of_tokenize scanned token isToken
  have found := (firstLexeme?_eq_some_iff.mp taken.taken).1
  rw [isWord] at found
  obtain ⟨nonempty, characters, _⟩ := Lexeme.run_eq_some_iff.mp found
  constructor
  · simpa using nonempty
  · intro c isChar
    simpa [Lexeme.isWordChar, Lexeme.isNameChar, or_assoc] using characters c isChar

/-- A literal stands for a value that holds no other values. -/
theorem Literal.isLiteral_value (literal : Literal) : literal.value.IsLiteral := by
  cases literal <;> trivial

/-- An operator other than equality constrains a field on its own. -/
theorem Operator.constrains {operator : Operator} {operand : Value} (takes : operator.Takes operand)
    (notEqual : operator.tag ≠ equalTag) : (Value.map [(operator.tag, operand)]).Constrains := by
  refine .operators (List.cons_ne_nil _ _) (by simp [Table.Distinct, Table.keys]) ?_ ?_
  · intro entry isEntry
    rw [List.mem_singleton.mp isEntry]
    exact ⟨operator, rfl, takes⟩
  · intro isEqual
    exact absurd (List.mem_singleton.mp isEqual).symm notEqual

namespace Clause

variable {clause : Clause}

/-- The entries of a clause's comparison constrain their fields. -/
theorem entry_constrains : ∀ entry ∈ clause.fields, entry.2.Constrains := by
  intro entry isEntry
  cases clause with
  | between lower lowerLimit field upperLimit upper =>
    rw [List.mem_singleton.mp isEntry]
    refine .operators (List.cons_ne_nil _ _) ?_ ?_ ?_
    · exact (between lower lowerLimit field upperLimit upper).distinct_operators _
        (List.mem_singleton_self _)
    · intro operand isOperand
      rcases List.mem_cons.mp isOperand with rfl | isLast
      · exact ⟨.compare lowerLimit.above, rfl, lower.isLiteral_value⟩
      · rw [List.mem_singleton.mp isLast]
        exact ⟨.compare upperLimit.below, rfl, upper.isLiteral_value⟩
    · have aboveTag : (Operator.compare lowerLimit.above).tag ≠ equalTag := by
        cases lowerLimit <;> decide
      have belowTag : (Operator.compare upperLimit.below).tag ≠ equalTag := by
        cases upperLimit <;> decide
      intro isEqual
      simp [Table.keys, aboveTag.symm, belowTag.symm] at isEqual
  | presence present field others =>
    rw [(mem_presence_fields.mp isEntry).2]
    exact Operator.constrains ⟨present, rfl⟩ (by decide)
  | membership field inside first others =>
    rw [List.mem_singleton.mp isEntry]
    have literals : ∀ item ∈ (first :: others).map Literal.value, item.IsLiteral := by
      intro item isItem
      obtain ⟨literal, _, rfl⟩ := List.mem_map.mp isItem
      exact literal.isLiteral_value
    cases inside with
    | true => exact Operator.constrains ⟨_, rfl, List.cons_ne_nil _ _, literals⟩ (by decide)
    | false => exact Operator.constrains ⟨_, rfl, List.cons_ne_nil _ _, literals⟩ (by decide)
  | comparison field comparator operand =>
    cases comparator with
    | equal =>
      rw [List.mem_singleton.mp isEntry]
      exact .literal operand.isLiteral_value
    | notEqual | greater | atLeast | less | atMost | matching =>
      rw [List.mem_singleton.mp isEntry]
      exact Operator.constrains operand.isLiteral_value (by decide)

/-- The fields of a clause's comparison are those that the clause uses, each once. -/
theorem fields_keys :
    clause.fields.Distinct ∧ ∀ entry ∈ clause.fields, ∃ tag, (entry.1, tag) ∈ clause.marks := by
  cases clause with
  | presence present field others =>
    refine ⟨Table.distinct_ofList _, ?_⟩
    intro entry isEntry
    exact ⟨_, List.mem_map_of_mem (mem_presence_fields.mp isEntry).1⟩
  | between lower lowerLimit field upperLimit upper =>
    simp [fields, marks, Table.Distinct, Table.keys]
  | membership field inside first others =>
    simp [fields, marks, Table.Distinct, Table.keys]
  | comparison field comparator operand =>
    cases comparator <;> simp [fields, marks, Table.Distinct, Table.keys]

/-- A clause whose fields are named by words has the right shape. -/
theorem shaped (named : ∀ mark ∈ clause.marks, IsFieldName mark.1) :
    (Node.comparison clause.fields).Shaped := by
  obtain ⟨distinct, used⟩ := clause.fields_keys
  refine .comparison clause.fields_ne_nil ⟨distinct, ?_⟩
  intro entry isEntry
  obtain ⟨tag, isMark⟩ := used entry isEntry
  exact ⟨named (entry.1, tag) isMark, entry_constrains entry isEntry⟩

end Clause

mutual

/-- The tree of a term has the right shape. -/
theorem Term.toNode_shaped :
    (term : Term) → (∀ mark ∈ term.marks, IsFieldName mark.1) → term.toNode.Shaped
  | .clause _, named => Clause.shaped named
  | .group inside, named => by
    refine Node.joinAll_shaped inside.toNodes_ne_nil (inside.toNodes_shaped named) ?_
    intro isAnd
    cases isAnd

/-- The trees of the terms of a conjunction have the right shape. -/
theorem Conjunction.toNodes_shaped :
    (conjunction : Conjunction) → (∀ mark ∈ conjunction.marks, IsFieldName mark.1) →
      ∀ node ∈ conjunction.toNodes, node.Shaped
  | .single term, named => by
    intro node isNode
    rw [List.mem_singleton.mp isNode]
    exact term.toNode_shaped named
  | .and term rest, named => by
    obtain ⟨here, later⟩ := List.forall_mem_append.mp named
    exact List.forall_mem_cons.mpr ⟨term.toNode_shaped here, rest.toNodes_shaped later⟩

/-- The trees of the conjunctions of an expression have the right shape. -/
theorem Disjunction.toNodes_shaped :
    (disjunction : Disjunction) → (∀ mark ∈ disjunction.marks, IsFieldName mark.1) →
      ∀ node ∈ disjunction.toNodes, node.Shaped
  | .single conjunction, named => by
    intro node isNode
    rw [List.mem_singleton.mp isNode]
    exact Node.merged_shaped conjunction.toNodes_ne_nil (conjunction.toNodes_shaped named)
  | .or conjunction rest, named => by
    obtain ⟨here, later⟩ := List.forall_mem_append.mp named
    exact List.forall_mem_cons.mpr
      ⟨Node.merged_shaped conjunction.toNodes_ne_nil (conjunction.toNodes_shaped here),
        rest.toNodes_shaped later⟩

end

/-- The tree of an expression that is written by the tokens of a text has the right shape. -/
theorem Disjunction.Derives.shaped {expression : Disjunction} {text : String}
    {tokens : List Token} (derived : expression.Derives tokens)
    (scanned : tokenize text = .ok tokens) : expression.toNode.Shaped := by
  have named : ∀ mark ∈ expression.marks, IsFieldName mark.1 := fun mark isMark =>
    (derived.named mark isMark).isFieldName scanned
  refine Node.joinAll_shaped expression.toNodes_ne_nil (expression.toNodes_shaped named) ?_
  intro isAnd
  cases isAnd

/-- The tree of every filter has the right shape: joined nodes have several children,
comparisons are not empty and name their fields by words, fields are constrained by literals
and operator maps of the right form, and the comparisons of a conjunction overlap one by
one. -/
theorem parseFilter_shaped {depthLimit : Int} {text : String} {insights after : Insights}
    {filter : Filter} (accepted : parseFilter depthLimit text insights = .ok filter after) :
    filter.node.Shaped := by
  obtain ⟨_, scanned, _, derived, _, _⟩ := parseFilter_eq_ok.mp accepted
  exact derived.shaped scanned

/-- Equality stands beside another operator, and a group stands between clauses that use one
operator on one field. -/
def groupAmidConflict : Disjunction :=
  .single (.and (.clause (.comparison "a" .equal (.integer 1)))
    (.and (.clause (.comparison "a" .greater (.integer 2)))
      (.and (.group (.or (.single (.clause (.comparison "b" .equal (.integer 1))))
          (.single (.single (.clause (.membership "c" true (.word "x") [.integer 2]))))))
        (.and (.clause (.comparison "a" .greater (.integer 3)))
          (.single (.clause (.presence true "e" ["e"])))))))

/-- A conflict cuts the comparisons in two, and the group stands in front of them. -/
theorem parseFilter_shaped_groupAmidConflict :
    ∃ filter after,
      parseFilter 1 "a=1&a>2&(b=1^c{x,2})&a>3&$exists=e,e" Insights.empty =
        .ok filter after ∧
      filter.node = .logical .and
        [.logical .or [.comparison [("b", .int 1)],
            .comparison [("c", .map [("$in", .list [.text "x", .int 2])])]],
          .comparison [("a", .map [("$eq", .int 1), ("$gt", .int 2)])],
          .comparison [("a", .map [("$gt", .int 3)]), ("e", .map [("$exists", .bool true)])]] ∧
      filter.node.Shaped := by
  have writable : groupAmidConflict.isWritable = true := by rfl
  have nested : groupAmidConflict.NestedWithin 1 := .inr (by decide)
  obtain ⟨tokens, scanned, derived⟩ := Disjunction.tokenize_source writable
  have accepted :
      parseFilter 1 "a=1&a>2&(b=1^c{x,2})&a>3&$exists=e,e" Insights.empty =
        .ok ⟨groupAmidConflict, tokens.length⟩ _ :=
    parseFilter_eq_ok.mpr ⟨tokens, scanned, rfl, derived, nested, rfl⟩
  exact ⟨_, _, accepted, by rfl, parseFilter_shaped accepted⟩

end UrlFilter
