import UrlFilter.Proofs.Expression.Connected
import UrlFilter.Proofs.Expression.Shape
import UrlFilter.Proofs.Token.Enclosed

/-!
# Parentheses around a filter

A filter text in parentheses is one group. Its only term is merged by itself, which leaves the tree
as it is, so the text means the same filter as long as one more group may be opened.
-/

namespace UrlFilter

/-- Entries with new and distinct fields are added at the end. -/
theorem Merge.addFields_eq_append {merge : Merge} {fields : Table Value}
    (fresh : ∀ field ∈ fields.keys, field ∉ merge.current.keys) (distinct : fields.Distinct) :
    fields.foldl addField merge = { merge with current := merge.current ++ fields } := by
  induction fields generalizing merge with
  | nil => simp
  | cons entry rest inductionHypothesis =>
    obtain ⟨field, value⟩ := entry
    simp only [Table.Distinct, Table.keys, List.map_cons, List.nodup_cons] at distinct fresh
    have absent : merge.current.get? field = none :=
      Table.get?_eq_none_iff.mpr (fresh field List.mem_cons_self)
    have added : merge.addField (field, value) =
        { merge with current := merge.current ++ [(field, value)] } := by
      simp only [addField, absent, Table.put_of_get?_eq_none absent]
    rw [List.foldl_cons, added, inductionHypothesis ?_ distinct.2]
    · simp
    · intro later isLater
      simp only [Table.keys, List.map_append, List.mem_append, not_or]
      refine ⟨fresh later (.tail _ isLater), ?_⟩
      rintro same
      rw [List.mem_singleton.mp same] at isLater
      exact distinct.1 isLater

/-- A node of the right shape is merged to itself. -/
theorem Node.Shaped.merged_singleton {node : Node} (shaped : node.Shaped) :
    Node.merged [node] = node := by
  cases shaped with
  | @comparison fields nonempty constraining =>
    have gathered : fields.foldl Merge.addField Merge.empty = ⟨[], fields⟩ :=
      Merge.addFields_eq_append (by simp [Merge.empty, Table.keys]) constraining.distinct
    have filled : fields.isEmpty = false := by simpa using nonempty
    simp [Node.merged, Node.mergedMembers, Merge.addNode, gathered, Merge.members, filled, joinAll]
  | logical => rfl

/-- The expression in parentheses. -/
def Disjunction.enclosed (expression : Disjunction) : Disjunction :=
  .single (.single (.group expression))

namespace Disjunction

variable {expression : Disjunction}

/-- The tree of an expression in parentheses is the merged tree of the expression. -/
theorem toNode_enclosed (shaped : expression.toNode.Shaped) :
    expression.enclosed.toNode = expression.toNode :=
  shaped.merged_singleton

/-- Parentheses nest groups one deeper. -/
theorem depth_enclosed : expression.enclosed.depth = expression.depth + 1 := by
  simp [enclosed, depth, Conjunction.depth, Term.depth]

/-- Parentheses leave no marks. -/
theorem marks_enclosed : expression.enclosed.marks = expression.marks := by
  simp [enclosed, marks, Conjunction.marks, Term.marks]

end Disjunction

/-- Parentheses around a filter text do not show: where one more group may be opened, the text in
parentheses is read as a filter with the same tree and the same insights. -/
theorem parseFilter_parenthesized {depthLimit : Int} {text : String} {insights after : Insights}
    {filter : Filter} (accepted : parseFilter depthLimit text insights = .ok filter after)
    (room : (filter.expression.depth : Int) < depthLimit) :
    ∃ grouped, parseFilter depthLimit ("(" ++ text ++ ")") insights = .ok grouped after ∧
      grouped.node = filter.node := by
  obtain ⟨tokens, scanned, _, derived, _, rfl⟩ := parseFilter_eq_ok.mp accepted
  have written : Term.Derives (.group filter.expression) (⟨.openGroup, "(", 0⟩ ::
      tokens.map (Token.shift 1) ++ [⟨.closeGroup, ")", text.length + 1⟩]) :=
    .group rfl (derived.shift 1) rfl
  have nested : filter.expression.enclosed.NestedWithin depthLimit := by
    right
    rw [Disjunction.depth_enclosed]
    omega
  refine ⟨⟨filter.expression.enclosed, _⟩, parseFilter_eq_ok.mpr
    ⟨_, tokenize_enclosed scanned, rfl, .single (.single written), nested, ?_⟩,
    Disjunction.toNode_enclosed (derived.shaped scanned)⟩
  rw [Disjunction.marks_enclosed]

/-- The parenthesis behind a slash and a quote that nothing closes ends the phrase. -/
theorem parseFilter_parenthesized_unclosed :
    ∃ filter grouped after,
      parseFilter 1 "a='b c&d=/e f" Insights.empty = .ok filter after ∧
      (filter.expression.depth : Int) < 1 ∧
      parseFilter 1 ("(" ++ "a='b c&d=/e f" ++ ")") Insights.empty = .ok grouped after ∧
      grouped.node = .comparison [("a", .text "'b c"), ("d", .text "/e f")] := by
  have scanned : tokenize "a='b c&d=/e f" = .ok
      [⟨.word, "a", 0⟩, ⟨.equal, "=", 1⟩, ⟨.phrase, "'b c", 2⟩, ⟨.and, "&", 6⟩, ⟨.word, "d", 7⟩,
        ⟨.equal, "=", 8⟩, ⟨.phrase, "/e f", 9⟩] := by
    rfl
  have first : Clause.Derives (.comparison "a" .equal (.phrase "'b c"))
      [⟨.word, "a", 0⟩, ⟨.equal, "=", 1⟩, ⟨.phrase, "'b c", 2⟩] :=
    .comparison (@FieldDerives.token ⟨.word, "a", 0⟩ rfl) rfl (.token (by decide) (by rfl))
  have second : Clause.Derives (.comparison "d" .equal (.phrase "/e f"))
      [⟨.word, "d", 7⟩, ⟨.equal, "=", 8⟩, ⟨.phrase, "/e f", 9⟩] :=
    .comparison (@FieldDerives.token ⟨.word, "d", 7⟩ rfl) rfl (.token (by decide) (by rfl))
  have both : Disjunction.Derives (.single (.and (.clause _) (.single (.clause _)))) _ :=
    .single (.and (.clause first) (rfl : Token.kind ⟨.and, "&", 6⟩ = .and)
      (.single (.clause second)))
  have accepted : parseFilter 1 "a='b c&d=/e f" Insights.empty = .ok ⟨_, 7⟩ _ :=
    parseFilter_eq_ok.mpr ⟨_, scanned, rfl, both, .inl (by decide), rfl⟩
  obtain ⟨grouped, enclosed, same⟩ := parseFilter_parenthesized accepted (by decide)
  exact ⟨_, grouped, _, accepted, by decide, enclosed, same.trans (by rfl)⟩

end UrlFilter
