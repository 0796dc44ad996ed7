import UrlFilter.Proofs.Insights

/-!
# Lists of strings

Strings between quotes may hold any character, so a list of them is scanned string by string.
In front of the list an exclamation mark ends the field. Without it the field goes on as a
phrase, over the brace and the quotes, if a character that joins words stands in the text before
one that ends phrases.
-/

namespace UrlFilter

open Text Lexeme Scan

namespace Lexeme

/-- Text without delimiters and backslashes may stand between delimiters. -/
theorem isEscaped_of_plain {delimiter : Char} {text : List Char}
    (plain : ∀ c ∈ text, c ≠ delimiter ∧ c ≠ '\\') : isEscaped delimiter text = true := by
  induction text with
  | nil => rfl
  | cons c others inductionHypothesis =>
    have first := plain c List.mem_cons_self
    have later := inductionHypothesis fun other isLater => plain other (.tail _ isLater)
    rw [isEscaped_cons first.2, later]
    simpa using first.1

end Lexeme

/-- The strings between quotes, separated by commas, in braces. -/
def quotedList (contents : List String) : String :=
  "\x7b" ++ joined "," (contents.map fun content => "'" ++ content ++ "'") ++ "\x7d"

/-- The text is read as the comparison of a field with a list of strings, and only the operator
is recorded for the field. -/
def ReadsMembership (depthLimit : Int) (insights : Insights) (text field : String)
    (operator : Operator) (contents : List String) : Prop :=
  ∃ filter : Filter,
    parseFilter depthLimit text insights = .ok filter (insights.record (field, operator.tag)) ∧
      filter.node = .comparison [(field, .map [(operator.tag, .list (contents.map .text))])]

section PhraseFirst

variable {tokens : List Token}

/-- The tokens start with a phrase. -/
def StartsWithPhrase (tokens : List Token) : Prop :=
  ∀ first ∈ tokens.head?, first.kind = .phrase

/-- The marks have one of a lower bound. -/
def HasLowerBound (marks : List Mark) : Prop :=
  ∃ (field : String) (limit : Limit), (field, (Operator.compare limit.above).tag) ∈ marks

/-- More marks leave a lower bound. -/
theorem HasLowerBound.append {marks : List Mark} (bound : HasLowerBound marks)
    (more : List Mark) : HasLowerBound (marks ++ more) := by
  obtain ⟨field, limit, isMark⟩ := bound
  exact ⟨field, limit, List.mem_append_left more isMark⟩

/-- What starts with a phrase does so in a first part that is not empty. -/
theorem StartsWithPhrase.of_append {more : List Token} (nonempty : tokens ≠ [])
    (phrase : StartsWithPhrase (tokens ++ more)) : StartsWithPhrase tokens := by
  obtain ⟨first, others, rfl⟩ := List.exists_cons_of_ne_nil nonempty
  exact phrase

/-- Of the clauses only a between clause starts with a phrase. -/
theorem Clause.Derives.hasLowerBound {clause : Clause} (derived : clause.Derives tokens)
    (phrase : StartsWithPhrase tokens) : HasLowerBound clause.marks := by
  cases derived with
  | between => exact ⟨_, _, List.mem_cons_self⟩
  | presence isKeyword =>
    have isPhrase := phrase _ rfl
    rw [isKeyword] at isPhrase
    cases isPhrase
  | within fieldDerived | outside fieldDerived | comparison fieldDerived =>
    obtain ⟨isWord⟩ := fieldDerived
    have isPhrase := phrase _ rfl
    rw [isWord] at isPhrase
    cases isPhrase

/-- A term that starts with a phrase has a lower bound. -/
theorem Term.Derives.hasLowerBound {term : Term} (derived : term.Derives tokens)
    (phrase : StartsWithPhrase tokens) : HasLowerBound term.marks := by
  cases derived with
  | clause derived => exact derived.hasLowerBound phrase
  | group opens =>
    have isPhrase := phrase _ rfl
    rw [opens] at isPhrase
    cases isPhrase

/-- A conjunction that starts with a phrase has a lower bound. -/
theorem Conjunction.Derives.hasLowerBound {conjunction : Conjunction}
    (derived : conjunction.Derives tokens) (phrase : StartsWithPhrase tokens) :
    HasLowerBound conjunction.marks := by
  cases derived with
  | single derived => exact derived.hasLowerBound phrase
  | and derived => exact (derived.hasLowerBound (phrase.of_append derived.ne_nil)).append _

/-- An expression that starts with a phrase starts with a between clause. -/
theorem Disjunction.Derives.hasLowerBound {expression : Disjunction}
    (derived : expression.Derives tokens) (phrase : StartsWithPhrase tokens) :
    HasLowerBound expression.marks := by
  cases derived with
  | single derived => exact derived.hasLowerBound phrase
  | or derived => exact (derived.hasLowerBound (phrase.of_append derived.ne_nil)).append _

end PhraseFirst

section Lists

variable {field first : String} {others : List String}

/-- A string is written between quotes. -/
theorem sources_quoted :
    (Literal.quoted first :: others.map .quoted).map Literal.source =
      (first :: others).map fun content => "'" ++ content ++ "'" := by
  simp [Literal.source]

/-- How a membership clause with strings is written. -/
theorem source_quotedList (inside : Bool) :
    (Clause.membership field inside (.quoted first) (others.map .quoted)).source =
      field ++ (if inside then "" else "!") ++ quotedList (first :: others) := by
  rw [Clause.source, sources_quoted, quotedList, ← String.toList_inj]
  cases inside <;> simp

/-- A list of strings starts with a brace. -/
theorem toList_quotedList (contents : List String) :
    ∃ others, (quotedList contents).toList = '\x7b' :: others :=
  ⟨(joined "," (contents.map fun content => "'" ++ content ++ "'")).toList ++ ['\x7d'],
    by simp [quotedList]⟩

variable (plain : ∀ content ∈ first :: others, ∀ c ∈ content.toList, c ≠ '\'' ∧ c ≠ '\\')

include plain

/-- Strings without quotes and backslashes are scanned one by one, whatever they hold. -/
theorem writes_quotedItems (rest : List Char) :
    Writes (SeparatedDerives .comma Literal.Derives (.quoted first) (others.map .quoted))
      (joined "," ((.quoted first :: others.map .quoted).map Literal.source)).toList rest := by
  refine writes_joined (fun _ => True) ?_ (fun _ _ => trivial) trivial
  intro literal isItem rest _
  obtain ⟨content, isContent, rfl⟩ : ∃ content ∈ first :: others, literal = .quoted content := by
    simpa [eq_comm] using isItem
  have writable : (Literal.quoted content).isWritable = true :=
    isEscaped_of_plain (plain content isContent)
  refine (writes_takenAs (by decide) (Literal.quoted_takenAs writable rest)).imp ?_
  rintro _ ⟨token, rfl, derived, _⟩
  exact derived

end Lists

/-- A text that is scanned as a membership clause of strings is read as one. -/
theorem readsMembership_of_writes {text field first : String} {others : List String}
    {inside : Bool} (writes : Writes
      (Clause.Derives (.membership field inside (.quoted first) (others.map .quoted)))
      text.toList []) (depthLimit : Int) (insights : Insights) :
    ReadsMembership depthLimit insights text field (Clause.membershipOperator inside)
      (first :: others) := by
  obtain ⟨tokens, scanned, derived⟩ := writes.tokenize
  have accepted : parseFilter depthLimit text insights = .ok ⟨.single (.single (.clause
      (.membership field inside (.quoted first) (others.map .quoted)))), tokens.length⟩ _ :=
    parseFilter_eq_ok.mpr
      ⟨tokens, scanned, rfl, .single (.single (.clause derived)), .inl rfl, rfl⟩
  refine ⟨_, accepted, ?_⟩
  have values : (Literal.quoted first :: others.map .quoted).map Literal.value =
      (first :: others).map .text := by
    simp [Literal.value]
  rw [← values]
  rfl

/-- Where a phrase is taken first, no membership clause is read. -/
theorem not_readsMembership_of_phrase {text field : String} {lexeme rest : List Char}
    (characters : text.toList = lexeme ++ rest)
    (taken : firstLexeme? (lexeme ++ rest) = some (.phrase, lexeme)) (inside : Bool)
    (contents : List String) (depthLimit : Int) (insights : Insights) :
    ¬ ReadsMembership depthLimit insights text field (Clause.membershipOperator inside)
      contents := by
  rintro ⟨filter, accepted, isNode⟩
  obtain ⟨tokens, scanned, _, derived, _⟩ := parseFilter_eq_ok.mp accepted
  have phrase : StartsWithPhrase tokens := by
    obtain ⟨scan, reads, _, rfl⟩ := reads_of_tokenize scanned
    rw [reads.eq, characters, readFrom_lexeme taken]
    rintro _ ⟨⟩
    rfl
  obtain ⟨bounded, limit, isMark⟩ := derived.hasLowerBound phrase
  have isUsed : (bounded, (Operator.compare limit.above).tag) ∈ filter.node.marks :=
    filter.expression.mem_marks_iff.mp isMark
  have sameTag : (Operator.compare limit.above).tag = (Clause.membershipOperator inside).tag := by
    rw [isNode] at isUsed
    simp only [Node.marks, Node.constraints, Node.fieldConstraints, Value.operators,
      Constraint.mark, List.flatMap_cons, List.flatMap_nil, List.map_cons, List.map_nil,
      List.append_nil, List.mem_singleton, Prod.mk.injEq] at isUsed
    exact isUsed.2
  revert sameTag
  cases limit <;> cases inside <;> decide

/-- With an exclamation mark every list of strings is read as it is written. Without it the list
is read exactly if no character that joins words stands in it before one that ends phrases. -/
theorem parseFilter_quotedList {field first : String} {others : List String}
    (bare : isBareWord field.toList = true)
    (plain : ∀ content ∈ first :: others, ∀ c ∈ content.toList, c ≠ '\'' ∧ c ≠ '\\')
    (depthLimit : Int) (insights : Insights) :
    ReadsMembership depthLimit insights (field ++ "!" ++ quotedList (first :: others)) field
        .outside (first :: others) ∧
      (ReadsMembership depthLimit insights (field ++ quotedList (first :: others)) field
          .within (first :: others) ↔
        ((quotedList (first :: others)).toList.takeWhile fun c => !endsPhrase c).any
          joinsWords = false) := by
  have items := writes_quotedItems plain (['\x7d'] ++ [])
  obtain ⟨behind, opens⟩ := toList_quotedList (first :: others)
  refine ⟨?_, ?_, ?_⟩
  · have writes := Clause.writes_outside bare items
    rw [source_quotedList] at writes
    exact readsMembership_of_writes writes depthLimit insights
  · intro reads
    rw [← Bool.not_eq_true]
    intro joins
    have stops : (quotedList (first :: others)).toList.head?.any isWordChar = false := by
      rw [opens]
      rfl
    have taken := firstLexeme?_phrase bare stops joins
    have characters : (field ++ quotedList (first :: others)).toList =
        (field.toList ++ (quotedList (first :: others)).toList.takeWhile fun c => !endsPhrase c) ++
          (quotedList (first :: others)).toList.dropWhile fun c => !endsPhrase c := by
      rw [String.toList_append, List.append_assoc, List.takeWhile_append_dropWhile]
    rw [← String.toList_append, characters] at taken
    exact not_readsMembership_of_phrase characters taken true _ depthLimit insights reads
  · intro calm
    have delimits : Delimited (quotedList (first :: others)).toList := by
      refine ⟨?_, calm⟩
      rw [opens]
      rintro _ ⟨⟩
      decide
    have list : (quotedList (first :: others)).toList =
        ['\x7b'] ++ ((joined "," ((Literal.quoted first :: others.map .quoted).map
          Literal.source)).toList ++ ['\x7d']) ++ [] := by
      rw [quotedList, ← sources_quoted]
      simp
    rw [list] at delimits
    have writes := Clause.writes_within bare items delimits
    rw [source_quotedList] at writes
    have read := readsMembership_of_writes writes depthLimit insights
    rw [if_pos rfl, String.append_empty] at read
    exact read

/-- A blank stands in the first string behind a character that ends phrases, and in the second
string of the other list in front of every such character. -/
theorem parseFilter_quotedList_blanks :
    isBareWord "f".toList = true ∧
      (∀ content ∈ ["a=b c", "d"], ∀ c ∈ content.toList, c ≠ '\'' ∧ c ≠ '\\') ∧
      ReadsMembership 1 Insights.empty "f\x7b'a=b c','d'\x7d" "f" .within ["a=b c", "d"] ∧
      ReadsMembership 1 Insights.empty "f!\x7b'a','b c'\x7d" "f" .outside ["a", "b c"] ∧
      ¬ ReadsMembership 1 Insights.empty "f\x7b'a','b c'\x7d" "f" .within ["a", "b c"] := by
  have bare : isBareWord "f".toList = true := by decide
  have plain : ∀ content ∈ ["a=b c", "d"], ∀ c ∈ content.toList, c ≠ '\'' ∧ c ≠ '\\' := by
    simp
  have plainOther : ∀ content ∈ ["a", "b c"], ∀ c ∈ content.toList, c ≠ '\'' ∧ c ≠ '\\' := by
    simp
  have read := parseFilter_quotedList bare plain 1 Insights.empty
  have readOther := parseFilter_quotedList bare plainOther 1 Insights.empty
  refine ⟨bare, plain, read.2.mpr (by rfl), readOther.1, ?_⟩
  intro reads
  exact absurd (readOther.2.mp reads) (by decide)

/-- A list of one string with a blank is no list: a phrase is taken. -/
theorem not_readsMembership_blank :
    isBareWord "f".toList = true ∧ (∀ c ∈ "a b".toList, c ≠ '\'' ∧ c ≠ '\\') ∧
      tokenize ("f" ++ quotedList ["a b"]) = .ok [⟨.phrase, "f\x7b'a b'\x7d", 0⟩] ∧
      ¬ ReadsMembership 100 Insights.empty ("f" ++ quotedList ["a b"]) "f" .within ["a b"] := by
  have scanned : tokenize ("f" ++ quotedList ["a b"]) = .ok [⟨.phrase, "f\x7b'a b'\x7d", 0⟩] := by
    rfl
  refine ⟨by decide, by simp, scanned, ?_⟩
  rintro ⟨filter, accepted, _⟩
  have refused : ∃ failure, parseFilter 100 ("f" ++ quotedList ["a b"]) Insights.empty =
      .error failure Insights.empty :=
    ⟨_, rfl⟩
  obtain ⟨failure, refused⟩ := refused
  rw [refused] at accepted
  cases accepted

end UrlFilter
