import UrlFilter.Proofs.Expression.Source
import UrlFilter.Proofs.Filter

/-!
# Written filters

A filter that is written from an expression is read as that expression, whatever was
recorded before.
-/

namespace UrlFilter

/-- The source of an expression that can be written is read as the expression: the filter has
its tree, and what it uses is recorded. -/
theorem parseFilter_source {expression : Disjunction} (writable : expression.isWritable = true)
    {depthLimit : Int} (nested : expression.NestedWithin depthLimit) (insights : Insights) :
    ∃ filter : Filter,
      parseFilter depthLimit expression.source insights =
        .ok filter (insights.recordAll expression.marks) ∧
      filter.expression = expression ∧ expression.build = .ok filter.node := by
  obtain ⟨tokens, scanned, derived⟩ := Disjunction.tokenize_source writable
  have parsed : parseFilter depthLimit expression.source insights =
      .ok ⟨expression, tokens.length⟩ (insights.recordAll expression.marks) :=
    parseFilter_eq_ok.mpr ⟨tokens, scanned, rfl, derived, nested, rfl⟩
  exact ⟨_, parsed, rfl, expression.build_eq_ok⟩

/-- A group beside a between clause. -/
def groupBesideBetween : Disjunction :=
  .single (.and
    (.group (.or (.single (.clause (.membership "a" false (.integer (-1)) [.word "b"])))
      (.single (.single (.clause (.presence true "c" ["d"]))))))
    (.single (.clause (.between (.quoted "x y") .strict "e" .inclusive
      (.regex ⟨"a\\/b", [.ignoreCase]⟩)))))

/-- The source of the expression is read back as the same expression. -/
theorem parseFilter_groupBesideBetween :
    groupBesideBetween.isWritable = true ∧ groupBesideBetween.NestedWithin 1 ∧
      ∃ filter : Filter,
        parseFilter 1 "(a!\x7b-1,b\x7d^$exists=c,d)&'x y'<e<=/a\\/b/i" Insights.empty =
          .ok filter (Insights.empty.recordAll groupBesideBetween.marks) ∧
        filter.expression = groupBesideBetween ∧
        groupBesideBetween.build = .ok filter.node := by
  have writable : groupBesideBetween.isWritable = true := by rfl
  have nested : groupBesideBetween.NestedWithin 1 := .inr (by decide)
  have written : groupBesideBetween.source =
      "(a!\x7b-1,b\x7d^$exists=c,d)&'x y'<e<=/a\\/b/i" := by
    rfl
  have parsed := parseFilter_source writable nested Insights.empty
  rw [written] at parsed
  exact ⟨writable, nested, parsed⟩

end UrlFilter
