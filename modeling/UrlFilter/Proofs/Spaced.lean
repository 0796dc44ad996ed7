import UrlFilter.Proofs.Expression.LastTerm
import UrlFilter.Proofs.Filter
import UrlFilter.Proofs.Token.Alone

/-!
# Blanks around connectors

Two filter texts with a connector between them are a filter. With blanks around the connector they
are the same filter, unless the first text ends in a presence clause or in a list whose words or
field the blank makes part of a phrase; then they are none.
-/

namespace UrlFilter

open Text Lexeme

/-- The character that writes a connector. -/
def Connector.char : Connector → Char
  | .and => '&'
  | .or => '^'

/-- A connector is one of the connecting characters, with its kind of token. -/
theorem Connector.isConnector (connector : Connector) :
    (connector.char, connector.kind) ∈ connectors := by
  cases connector <;> simp [char, kind, connectors]

/-- The kind of a connector is one of the two. -/
theorem Connector.kind_mem (connector : Connector) : connector.kind ∈ [Kind.and, .or] := by
  cases connector <;> decide

/-- The tokens of a text that opens no regular expression and no string. -/
theorem Scan.Reads.plain {offset : Nat} {text : List Char} {scan : Scan}
    (reads : Reads offset text scan) (noFailure : scan.failure = none)
    (unopened : ∀ c ∈ text, opensDelimited c = false) :
    ∀ token ∈ scan.tokens, token.Plain ∧ token.IsClosed := by
  intro token isToken
  have unopenedToken : ∀ c ∈ token.text.toList, opensDelimited c = false :=
    fun c inside => unopened c (reads.mem_of_token isToken inside)
  obtain ⟨_, taken⟩ := reads.takenAlone noFailure token isToken
  have found := (firstLexeme?_eq_some_iff.mp taken).1
  obtain ⟨nonempty, _⟩ := Kind.lexeme?_prefix found
  obtain ⟨first, others, isText⟩ := List.exists_cons_of_ne_nil nonempty
  have firstUnopened := unopenedToken first (by simp [isText])
  refine ⟨⟨found, ?_⟩, ?_⟩
  · rw [isText] at found
    have starts := Kind.mayStart_of_lexeme? found
    have opens : ∀ kind ∈ [Kind.regex, .quoted], kind.mayStart first = true →
        opensDelimited first = true := by
      intro kind isDelimited mayStart
      simp only [List.mem_cons, List.not_mem_nil, or_false] at isDelimited
      rcases isDelimited with rfl | rfl <;> simp_all [Kind.mayStart, opensDelimited]
    intro isDelimited
    rw [opens _ isDelimited starts] at firstUnopened
    cases firstUnopened
  · intro _
    rw [isText]
    exact firstUnopened

/-- Groups are nested within the limit if they are in both parts. -/
theorem Disjunction.NestedWithin.connect {limit : Int} {expression other : Disjunction}
    (nested : expression.NestedWithin limit) (otherNested : other.NestedWithin limit)
    (connector : Connector) : (expression.connect connector other).NestedWithin limit := by
  unfold NestedWithin at *
  rw [depth_connect]
  omega

/-- A text is read as two expressions with a connector between them if its tokens are theirs. -/
theorem parseFilter_connect {depthLimit : Int} {text : String} {expression other : Disjunction}
    {connector : Connector} {tokens more : List Token} {between : Token} {distance : Nat}
    (scanned : tokenize text = .ok (tokens ++ between :: more.map (Token.shift distance)))
    (derived : expression.Derives tokens) (connects : between.kind = connector.kind)
    (further : other.Derives more) (nested : expression.NestedWithin depthLimit)
    (otherNested : other.NestedWithin depthLimit) (insights : Insights) :
    ∃ count, parseFilter depthLimit text insights =
      .ok ⟨expression.connect connector other, count⟩
        (insights.recordAll (expression.marks ++ other.marks)) := by
  refine ⟨_, parseFilter_eq_ok.mpr ⟨_, scanned, rfl,
    derived.connect connects (further.shift distance), nested.connect otherNested connector, ?_⟩⟩
  rw [Disjunction.marks_connect]

section Joined

variable {depthLimit : Int} {left right : String} {leftFilter rightFilter : Filter}
  {leftBefore leftAfter rightBefore rightAfter : Insights}

/-- Two filter texts, the first of which opens no regular expression and no string, are a filter
with a connector between them. With blanks around the connector they have the same tree and the
same insights if the last term of the first text does not end in bare text other than an operand,
and otherwise they are no filter. -/
theorem parseFilter_spaced
    (leftAccepted : parseFilter depthLimit left leftBefore = .ok leftFilter leftAfter)
    (rightAccepted : parseFilter depthLimit right rightBefore = .ok rightFilter rightAfter)
    (unopened : ∀ c ∈ left.toList, opensDelimited c = false) (connector : Connector)
    (insights : Insights) :
    ∃ filter after,
      parseFilter depthLimit (left ++ connector.char.toString ++ right) insights =
        .ok filter after ∧
      (leftFilter.expression.lastTerm.endsBare = false → ∃ spaced : Filter,
        parseFilter depthLimit (left ++ " " ++ connector.char.toString ++ " " ++ right) insights =
          .ok spaced after ∧ spaced.node = filter.node) ∧
      (leftFilter.expression.lastTerm.endsBare = true → ∀ spaced spacedAfter,
        parseFilter depthLimit (left ++ " " ++ connector.char.toString ++ " " ++ right) insights ≠
          .ok spaced spacedAfter) := by
  obtain ⟨_, leftScanned, _, leftDerived, leftNested, _⟩ := parseFilter_eq_ok.mp leftAccepted
  obtain ⟨_, rightScanned, _, rightDerived, rightNested, _⟩ := parseFilter_eq_ok.mp rightAccepted
  obtain ⟨leftScan, leftReads, leftWhole, rfl⟩ := reads_of_tokenize leftScanned
  obtain ⟨rightScan, rightReads, rightWhole, rfl⟩ := reads_of_tokenize rightScanned
  have plain := leftReads.plain leftWhole unopened
  -- The blank behind the first text, and the one in front of the second.
  obtain ⟨later, laterReads, laterWhole, spaced⟩ :=
    leftReads.spaced leftWhole fun token isToken => (plain token isToken).2
  have unopenedBlank : ∀ c ∈ [' '], opensDelimited c = false :=
    List.forall_mem_singleton.mpr (by decide)
  have laterPlain :=
    laterReads.plain laterWhole (List.forall_mem_append.mpr ⟨unopened, unopenedBlank⟩)
  have blankReads : Scan.Reads 0 ([' '] ++ right.toList) (rightScan.shift 1) :=
    .blanks isBlank_space (rightReads.shift 1)
  have tight : tokenize (left ++ connector.char.toString ++ right) = _ :=
    tokenize_of_joined (by simp) connector.isConnector leftReads leftWhole
      (fun token isToken => (plain token isToken).2) rightReads
  have wide : tokenize (left ++ " " ++ connector.char.toString ++ " " ++ right) = _ :=
    tokenize_of_joined (by simp) connector.isConnector laterReads laterWhole
      (fun token isToken => (laterPlain token isToken).2) blankReads
  simp only [Scan.shift, rightWhole, Option.map_none] at tight wide
  obtain ⟨_, tightAccepted⟩ := parseFilter_connect tight leftDerived rfl rightDerived leftNested
    rightNested insights
  refine ⟨_, _, tightAccepted, ?_, ?_⟩
  · intro notBare
    obtain ⟨alike, derived, same⟩ :=
      leftDerived.spaced (fun token isToken => (plain token isToken).1) notBare spaced
    have nested : alike.NestedWithin depthLimit := by
      rw [Disjunction.NestedWithin, same.depth]
      exact leftNested
    obtain ⟨_, wideAccepted⟩ := parseFilter_connect wide derived rfl (rightDerived.shift 1) nested
      rightNested insights
    rw [same.marks] at wideAccepted
    exact ⟨_, wideAccepted, same.toNode_connect connector _⟩
  · intro endsBare spacedFilter spacedAfter accepted
    obtain ⟨_, scanned, _, derived, _⟩ := parseFilter_eq_ok.mp accepted
    rw [wide] at scanned
    cases scanned
    exact leftDerived.not_spaced (fun token isToken => (plain token isToken).1) endsBare spaced
      connector.kind_mem _ _ derived

end Joined

/-- A comparison with a phrase may stand in front of the blanks, a list may not. -/
theorem parseFilter_spaced_operand :
    (∀ c ∈ "a=b c".toList, opensDelimited c = false) ∧
      (∃ (filter spaced : Filter) (after : Insights),
        parseFilter 1 "a=b c&d>2" Insights.empty = .ok filter after ∧
        parseFilter 1 "a=b c & d>2" Insights.empty = .ok spaced after ∧
        spaced.node = filter.node) ∧
      (∀ c ∈ "f\x7bx\x7d".toList, opensDelimited c = false) ∧
      ∀ spaced after, parseFilter 1 "f\x7bx\x7d & d>2" Insights.empty ≠ .ok spaced after := by
  have operand : ∃ filter after, parseFilter 1 "a=b c" Insights.empty = .ok filter after ∧
      filter.expression.lastTerm.endsBare = false := ⟨_, _, rfl, rfl⟩
  have list : ∃ filter after, parseFilter 1 "f\x7bx\x7d" Insights.empty = .ok filter after ∧
      filter.expression.lastTerm.endsBare = true := ⟨_, _, rfl, rfl⟩
  have right : ∃ filter after, parseFilter 1 "d>2" Insights.empty = .ok filter after :=
    ⟨_, _, rfl⟩
  obtain ⟨_, _, operandAccepted, notBare⟩ := operand
  obtain ⟨_, _, listAccepted, endsBare⟩ := list
  obtain ⟨_, _, rightAccepted⟩ := right
  have unopened : ∀ c ∈ "a=b c".toList, opensDelimited c = false := by
    simp [opensDelimited]
  have alsoUnopened : ∀ c ∈ "f\x7bx\x7d".toList, opensDelimited c = false := by
    simp [opensDelimited]
  obtain ⟨filter, after, accepted, same, _⟩ :=
    parseFilter_spaced operandAccepted rightAccepted unopened .and Insights.empty
  obtain ⟨_, _, _, _, refused⟩ :=
    parseFilter_spaced listAccepted rightAccepted alsoUnopened .and Insights.empty
  obtain ⟨spaced, spacedAccepted, isNode⟩ := same notBare
  have tight : "a=b c" ++ Connector.and.char.toString ++ "d>2" = "a=b c&d>2" := by decide
  have wide : "a=b c" ++ " " ++ Connector.and.char.toString ++ " " ++ "d>2" = "a=b c & d>2" := by
    decide
  have wideList :
      "f\x7bx\x7d" ++ " " ++ Connector.and.char.toString ++ " " ++ "d>2" = "f\x7bx\x7d & d>2" := by
    decide
  rw [tight] at accepted
  rw [wide] at spacedAccepted
  have isRefused := refused endsBare
  rw [wideList] at isRefused
  exact ⟨unopened, ⟨filter, spaced, after, accepted, spacedAccepted, isNode⟩, alsoUnopened,
    isRefused⟩

/-- A list of one word is a filter, but not with blanks and another filter behind it: there it
is a phrase, and a phrase is no clause. -/
theorem not_parseFilter_spaced_list :
    (∀ c ∈ "f\x7bx\x7d".toList ++ "b=1".toList, opensDelimited c = false) ∧
      (∃ filter after, parseFilter 100 "f\x7bx\x7d" Insights.empty = .ok filter after) ∧
      (∃ filter after, parseFilter 100 "b=1" Insights.empty = .ok filter after) ∧
      ∃ failure after, parseFilter 100 "f\x7bx\x7d & b=1" Insights.empty = .error failure after :=
  ⟨by simp [opensDelimited], ⟨_, _, rfl⟩, ⟨_, _, rfl⟩, ⟨_, _, rfl⟩⟩

end UrlFilter
