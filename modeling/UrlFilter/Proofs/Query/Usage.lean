import UrlFilter.Proofs.Failure
import UrlFilter.Proofs.Parser.Moves
import UrlFilter.Proofs.Query.Control
import UrlFilter.Query.Usage

/-!
# Insights only grow

Whatever insights are used for, the marks that are found are recorded in order and nothing else
happens to them. So new fields come behind the ones before, and no tag is taken away. A filter adds
fields that its text names, even if it fails after some of its clauses have been read.
-/

namespace UrlFilter

namespace Insights

/-- The second insights hold what the first ones hold, and new fields come at the end. -/
structure Grows (before after : Insights) : Prop where
  fields : ∃ added, after.fields = before.fields ++ added ∧ added.Nodup ∧
    ∀ field ∈ added, field ∉ before.fields
  keeps : ∀ field tag, before.Records field tag → after.Records field tag

/-- Something is recorded for every field. -/
def Proper (insights : Insights) : Prop :=
  ∀ field ∈ insights.fields, insights.tags field ≠ []

variable {before middle after insights : Insights}

/-- Insights that stay as they are have grown by nothing. -/
theorem Grows.refl (insights : Insights) : insights.Grows insights where
  fields := ⟨[], (List.append_nil _).symm, List.nodup_nil, by simp⟩
  keeps _ _ := id

/-- Insights that grow and grow again have grown. -/
theorem Grows.trans (first : before.Grows middle) (second : middle.Grows after) :
    before.Grows after where
  fields := by
    obtain ⟨added, middleFields, distinct, fresh⟩ := first.fields
    obtain ⟨more, afterFields, moreDistinct, moreFresh⟩ := second.fields
    rw [middleFields] at moreFresh
    refine ⟨added ++ more, by rw [afterFields, middleFields, List.append_assoc], ?_, ?_⟩
    · refine List.nodup_append.mpr ⟨distinct, moreDistinct, ?_⟩
      rintro field isAdded _ isMore rfl
      exact moreFresh field isMore (List.mem_append_right _ isAdded)
    · rw [List.forall_mem_append]
      exact ⟨fresh, fun field isMore isBefore =>
        moreFresh field isMore (List.mem_append_left _ isBefore)⟩
  keeps field tag isRecorded := second.keeps field tag (first.keeps field tag isRecorded)

/-- One mark adds its field at the end, unless it is there. -/
theorem grows_record (insights : Insights) (mark : Mark) :
    insights.Grows (insights.record mark) where
  fields := by
    have sameKeys := Table.keys_put insights.tagsOf mark.1
      (insertTag mark.2 (insights.tags mark.1))
    by_cases present : mark.1 ∈ insights.fields
    · exact ⟨[], by rw [List.append_nil]; exact sameKeys.trans (if_pos present), List.nodup_nil,
        by simp⟩
    · exact ⟨[mark.1], sameKeys.trans (if_neg present), by simp,
        List.forall_mem_singleton.mpr present⟩
  keeps field tag isRecorded := (records_record insights mark field tag).mpr (.inl isRecorded)

/-- Recording makes insights grow. -/
theorem grows_recordAll (insights : Insights) (marks : List Mark) :
    insights.Grows (insights.recordAll marks) := by
  induction marks generalizing insights with
  | nil => exact .refl insights
  | cons mark rest inductionHypothesis =>
    exact (grows_record insights mark).trans (inductionHypothesis (insights.record mark))

/-- Where nothing is recorded, everything is proper. -/
theorem proper_empty : empty.Proper := by
  simp [Proper, fields, empty, Table.keys]

/-- A field is recorded with a tag. -/
theorem Proper.recordAll (proper : insights.Proper) (marks : List Mark) :
    (insights.recordAll marks).Proper := by
  intro field isField
  have recorded : ∃ tag, (insights.recordAll marks).Records field tag := by
    rcases mem_fields_recordAll.mp isField with isBefore | isNew
    · obtain ⟨tag, isTag⟩ := List.exists_mem_of_ne_nil _ (proper field isBefore)
      exact ⟨tag, (grows_recordAll insights marks).keeps field tag isTag⟩
    · obtain ⟨⟨_, tag⟩, isMark, rfl⟩ := List.mem_map.mp isNew
      exact ⟨tag, (records_recordAll ..).mpr (.inr isMark)⟩
  obtain ⟨tag, isTag⟩ := recorded
  exact List.ne_nil_of_mem isTag

end Insights

/-- The tags of operators. -/
def Operator.tags : List String :=
  ["$eq", "$ne", "$gt", "$gte", "$lt", "$lte", "$regex", "$in", "$nin", "$exists"]

/-- The tag of an operator is one of the tags. -/
theorem Operator.tag_mem_tags (operator : Operator) : operator.tag ∈ tags := by
  cases operator with
  | compare comparator => cases comparator <;> decide
  | within | outside | presence => decide

section Filters

variable {depthLimit : Int} {text : String} {tokens : List Token} {insights after : Insights}

/-- No literal fails for the text around it. -/
theorem ParseFailure.ArisesIn.not_lexical {bounds : Bounds} {error : LexicalError} :
    ¬ (ParseFailure.lexical error).ArisesIn bounds tokens := by
  intro arises
  cases arises with
  | @literal token _ isToken unread =>
    unfold Literal.ofToken at unread
    split at unread
    · unfold Literal.readNumber at unread
      split at unread <;> split at unread <;> cases unread
    · cases unread
    · cases unread
    · unfold Literal.readRegex at unread
      split at unread <;> cases unread
    all_goals cases unread

/-- Parsing from the start of the tokens records marks of these tokens. -/
theorem Cursor.Abandons.recorded {cursor : Cursor}
    (abandons : (Cursor.start tokens insights).Abandons cursor) :
    ∃ marks, cursor.insights = insights.recordAll marks ∧ MarkedBy tokens marks := by
  obtain ⟨passed, marks, uses, _⟩ := abandons
  have split : tokens = passed ++ cursor.rest := uses.rest
  refine ⟨marks, uses.insights, uses.marked.mono ?_⟩
  rw [split]
  exact List.subset_append_left _ _

end Filters

namespace Usage

variable {insights after : Insights} {usage : Usage}

/-- A filter records fields that its text names, with tags of operators. -/
theorem leave_filter (depthLimit : Int) (text : String) (insights : Insights) :
    ∃ marks, (filter depthLimit text).leave insights = insights.recordAll marks ∧
      ∀ mark ∈ marks, ∃ tokens, tokenize text = .ok tokens ∧ NamedIn tokens mark.1 ∧
        ∃ operator : Operator, mark.2 = operator.tag := by
  cases scanned : tokenize text with
  | error error =>
    refine ⟨[], ?_, by simp⟩
    simp only [leave, run, EStateM.run, parseFilter, scanned]
    rfl
  | ok tokens =>
    have recorded : ∃ marks, (filter depthLimit text).leave insights = insights.recordAll marks ∧
        MarkedBy tokens marks := by
      simp only [leave, run, EStateM.run, parseFilter, scanned, bind, EStateM.bind, parseTokens]
      cases parsed : Parser.whole (Bounds.of tokens (some text) depthLimit)
        (Cursor.start tokens insights) with
      | ok expression cursor => exact (Parser.whole_moves.ok parsed).abandons.recorded
      | error failure cursor => exact (Parser.whole_moves.error parsed).recorded
    obtain ⟨marks, same, marked⟩ := recorded
    exact ⟨marks, same, fun mark isMark => ⟨tokens, rfl, marked mark isMark⟩⟩

/-- Controls record what the segments that are applied record. -/
theorem leave_controls (segments : List String) (insights : Insights) :
    ∃ marks, (controls segments).leave insights = insights.recordAll marks := by
  simp only [leave, run, EStateM.run, Query.readControls]
  cases applied : Control.applyAll segments ⟨insights, []⟩ with
  | ok updated trace =>
    refine ⟨segments.flatMap Control.marks, ?_⟩
    change trace.insights = _
    rw [(Control.foldlM_apply_eq_ok.mp applied).trace_eq, Control.insights_foldl_leave]
  | error failure trace =>
    obtain ⟨before, _, _, _, _, applies, _⟩ := Control.foldlM_apply_eq_error.mp applied
    refine ⟨before.flatMap Control.marks, ?_⟩
    change trace.insights = _
    rw [applies.trace_eq, Control.insights_foldl_leave]

/-- Every usage records marks, and does nothing else to the insights. -/
theorem leave_eq_recordAll (usage : Usage) (insights : Insights) :
    ∃ marks, usage.leave insights = insights.recordAll marks := by
  cases usage with
  | record mark => exact ⟨[mark], rfl⟩
  | filter depthLimit text =>
    obtain ⟨marks, same, _⟩ := leave_filter depthLimit text insights
    exact ⟨marks, same⟩
  | controls segments => exact leave_controls segments insights

/-- A text without tokens leaves the insights as they are. -/
theorem eq_of_lexical {error : LexicalError}
    (failed : usage.run insights = .error (.filter (.lexical error)) after) : after = insights := by
  cases usage with
  | record mark => cases failed
  | controls segments =>
    simp only [run, EStateM.run, Query.readControls] at failed
    cases applied : Control.applyAll segments ⟨insights, []⟩ <;> simp [applied] at failed
  | filter depthLimit text =>
    simp only [run, EStateM.run] at failed
    split at failed
    · cases failed
    · next failure middle unread =>
      cases failed
      cases scanned : tokenize text with
      | error other =>
        simp only [parseFilter, scanned] at unread
        cases unread
        rfl
      | ok tokens =>
        simp only [parseFilter, scanned, bind, EStateM.bind] at unread
        split at unread
        · cases unread
        · next inTokens =>
          cases unread
          exact absurd (parseTokens_error inTokens) ParseFailure.ArisesIn.not_lexical

/-- Behind any usages something is recorded for every field. -/
theorem leaveAll_proper (usages : List Usage) (proper : insights.Proper) :
    (leaveAll insights usages).Proper := by
  induction usages generalizing insights with
  | nil => exact proper
  | cons usage rest inductionHypothesis =>
    obtain ⟨marks, same⟩ := usage.leave_eq_recordAll insights
    refine inductionHypothesis ?_
    rw [same]
    exact proper.recordAll marks

/-- Insights only grow, whatever they have been used for before and whether that has failed. New
fields come at the end, each once, every field keeps its tags, and every field has a tag. A text
without tokens changes nothing. A filter adds, even if it fails, only fields that are words among
its tokens, with tags of operators and never with those of controls. -/
theorem grows (earlier : List Usage) (usage : Usage) :
    let before := leaveAll Insights.empty earlier
    let after := usage.leave before
    (∃ added, after.fields = before.fields ++ added ∧ added.Nodup ∧
      ∀ field ∈ added, field ∉ before.fields) ∧
    (∀ field tag, before.Records field tag → after.Records field tag) ∧
    (∀ field ∈ after.fields, after.tags field ≠ []) ∧
    (∀ error insights, usage.run before = .error (.filter (.lexical error)) insights →
      insights = before) ∧
    ∀ depthLimit text, usage = .filter depthLimit text →
      ∀ field tag, after.Records field tag → before.Records field tag ∨
        (∃ tokens, tokenize text = .ok tokens ∧ NamedIn tokens field) ∧ tag ∈ Operator.tags ∧
          tag ≠ Control.selectKey ∧ tag ≠ Control.orderKey := by
  intro before after
  obtain ⟨marks, same⟩ := usage.leave_eq_recordAll before
  have recorded : after = before.recordAll marks := same
  have growth : before.Grows after := by
    rw [recorded]
    exact Insights.grows_recordAll before marks
  have proper : after.Proper := by
    rw [recorded]
    exact (leaveAll_proper earlier Insights.proper_empty).recordAll marks
  refine ⟨growth.fields, growth.keeps, proper, fun _ _ => eq_of_lexical, ?_⟩
  rintro depthLimit text rfl field tag isRecorded
  obtain ⟨added, behind, named⟩ := leave_filter depthLimit text before
  have recorded : after = before.recordAll added := behind
  rw [recorded, Insights.records_recordAll] at isRecorded
  refine isRecorded.imp_right fun isAdded => ?_
  obtain ⟨tokens, scanned, isNamed, operator, isTag⟩ := named _ isAdded
  have isTag : tag = operator.tag := isTag
  subst isTag
  have notControl : ∀ tag ∈ Operator.tags, tag ≠ Control.selectKey ∧ tag ≠ Control.orderKey := by
    decide
  have isOperator := operator.tag_mem_tags
  exact ⟨⟨tokens, scanned, isNamed⟩, isOperator, notControl _ isOperator⟩

/-- The second control is refused. A filter whose second term is missing still adds to what has
been recorded, and a text without tokens does not. -/
theorem grows_refused :
    let before := leaveAll Insights.empty [.controls ["$select=a", "$limit=x"]]
    let after := (filter 1 "b=c&").leave before
    before.fields = ["a"] ∧ after.fields = ["a", "b"] ∧
    (∃ tokens, tokenize "b=c&" = .ok tokens ∧ NamedIn tokens "b") ∧
    ∃ insights, (filter 1 "#").run before = .error (.filter (.lexical ⟨0, '#'⟩)) insights ∧
      insights = before := by
  intro before after
  have isBefore : before = ⟨[("a", ["$select"])]⟩ := by rfl
  have isAfter : after = ⟨[("a", ["$select"]), ("b", ["$eq"])]⟩ := by rfl
  have recorded : after.Records "b" "$eq" := by
    rw [isAfter, Insights.Records]
    decide
  have absent : ¬ before.Records "b" "$eq" := by
    rw [isBefore, Insights.Records]
    decide
  obtain ⟨_, _, _, _, adds⟩ := grows [.controls ["$select=a", "$limit=x"]] (filter 1 "b=c&")
  obtain ⟨named, _⟩ := (adds 1 "b=c&" rfl "b" "$eq" recorded).resolve_left absent
  obtain ⟨_, _, _, onLexical, _⟩ := grows [.controls ["$select=a", "$limit=x"]] (filter 1 "#")
  have stuck : (filter 1 "#").run before = .error (.filter (.lexical ⟨0, '#'⟩)) before := by rfl
  exact ⟨by rw [isBefore]; rfl, by rw [isAfter]; rfl, named, before, stuck, onLexical _ _ stuck⟩

end Usage

end UrlFilter
