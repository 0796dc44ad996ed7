import UrlFilter.Proofs.Expression.Source
import UrlFilter.Proofs.Query.Read
import UrlFilter.Proofs.Query.Segment
import UrlFilter.Proofs.Token.Scan

/-!
# Filters among the segments

A filter can start with a dollar sign only as a presence clause does. Such a clause is told from
a control by the equality sign right behind its keyword, so the two are mixed up exactly if
blanks stand between them.
-/

namespace UrlFilter

open Text

/-- The tokens start as those of a term do: a keyword is that of a presence clause, and an
equality sign follows it. -/
def OpensTerm (tokens : List Token) : Prop :=
  ∃ first rest, tokens = first :: rest ∧ (first.kind = .keyword →
    ∃ present equal others, first.text = Clause.presenceKeyword present ∧
      rest = equal :: others ∧ equal.kind = .equal)

section Opens

variable {tokens : List Token}

/-- Tokens that start with another kind of token than a keyword may start a term. -/
theorem OpensTerm.of_ne {first : Token} (notKeyword : first.kind ≠ .keyword) (rest : List Token) :
    OpensTerm (first :: rest) :=
  ⟨first, rest, rfl, fun isKeyword => absurd isKeyword notKeyword⟩

/-- Tokens that may start a term may start it with more tokens behind them. -/
theorem OpensTerm.append (opens : OpensTerm tokens) (more : List Token) :
    OpensTerm (tokens ++ more) := by
  obtain ⟨first, rest, rfl, presence⟩ := opens
  refine ⟨first, rest ++ more, rfl, fun isKeyword => ?_⟩
  obtain ⟨present, equal, others, spelled, rfl, isEqual⟩ := presence isKeyword
  exact ⟨present, equal, others ++ more, spelled, rfl, isEqual⟩

/-- Tokens that start with a field may start a term. -/
theorem FieldDerives.opensTerm {field : String} (derived : FieldDerives field tokens)
    (more : List Token) : OpensTerm (tokens ++ more) := by
  obtain ⟨isWord⟩ := derived
  exact .of_ne (by simp [isWord]) more

/-- The tokens of a clause may start a term. -/
theorem Clause.Derives.opensTerm {clause : Clause} (derived : clause.Derives tokens) :
    OpensTerm tokens := by
  cases derived with
  | between bounds =>
    refine .of_ne ?_ _
    intro isKeyword
    rw [isKeyword] at bounds
    exact absurd bounds (by decide)
  | presence isKeyword spelling isEqual =>
    exact ⟨_, _, rfl, fun _ => ⟨_, _, _, spelling, rfl, isEqual⟩⟩
  | within fieldDerived | outside fieldDerived | comparison fieldDerived =>
    exact fieldDerived.opensTerm _

/-- The tokens of a term may start one. -/
theorem Term.Derives.opensTerm {term : Term} (derived : term.Derives tokens) :
    OpensTerm tokens := by
  cases derived with
  | clause derived => exact derived.opensTerm
  | group opens => exact .of_ne (by simp [opens]) _

/-- The tokens of a conjunction may start a term. -/
theorem Conjunction.Derives.opensTerm {conjunction : Conjunction}
    (derived : conjunction.Derives tokens) : OpensTerm tokens := by
  cases derived with
  | single derived => exact derived.opensTerm
  | and derived => exact derived.opensTerm.append _

/-- An expression starts as a term does. -/
theorem Disjunction.Derives.opensTerm {expression : Disjunction}
    (derived : expression.Derives tokens) : OpensTerm tokens := by
  cases derived with
  | single derived => exact derived.opensTerm
  | or derived => exact derived.opensTerm.append _

end Opens

/-- Where a control name stands, no lexeme but a keyword is taken. -/
theorem keyword_of_startsWithControlName {text lexeme : List Char} {kind : Kind}
    (starts : Segments.startsWithControlName text = true)
    (taken : firstLexeme? text = some (kind, lexeme)) : kind = .keyword := by
  obtain ⟨found, untaken⟩ := firstLexeme?_eq_some_iff.mp taken
  unfold Segments.startsWithControlName at starts
  split at starts
  · next c rest =>
    have mayStart := Kind.mayStart_of_lexeme? found
    by_cases isPhrase : kind = .phrase
    · subst isPhrase
      exfalso
      rcases Bool.or_eq_true_iff.mp starts with isName | isMark
      · -- A name behind the dollar sign makes a keyword, and keywords are tried first.
        have noKeyword : Lexeme.keyword ('$' :: c :: rest) = none := untaken .keyword (by decide)
        have notMark : c ≠ '!' := by
          rintro rfl
          exact absurd isName (by decide)
        simp [Lexeme.keyword, Lexeme.run, notMark, isName] at noKeyword
      · have phrase : Lexeme.phrase ('$' :: c :: rest) = some lexeme := found
        obtain ⟨same, first, others, rfl, _, joins⟩ := Lexeme.phrase_eq_some_iff.mp phrase
        rw [beq_iff_eq.mp isMark] at same
        cases same
        cases joins
    · have only : ∀ other : Kind, other.mayStart '$' = true →
          other = .phrase ∨ other = .keyword := by
        intro other
        cases other <;> decide
      exact (only kind mayStart).resolve_left isPhrase
  · cases starts

namespace Segments

/-- The text is a presence keyword with blanks behind it, an equality sign and the content; the
key is all that stands in front of the equality sign. -/
structure SpacedPresence (key content text : String) : Prop where
  spaced : ∃ (present : Bool) (blanks : List Char), blanks ≠ [] ∧
    (∀ c ∈ blanks, isBlank c = true) ∧
    key.toList = (Clause.presenceKeyword present).toList ++ blanks
  whole : text = key ++ "=" ++ content

variable {text key content : String}

/-- A presence clause with blanks behind its keyword is taken for a control. -/
theorem SpacedPresence.directs (isSpaced : SpacedPresence key content text) : Directs text := by
  obtain ⟨⟨present, blanks, nonempty, allBlank, isKey⟩, rfl⟩ := isSpaced
  obtain ⟨blank, others, rfl⟩ := List.exists_cons_of_ne_nil nonempty
  have notEqual : '=' ≠ blank := by
    rintro rfl
    exact absurd (allBlank '=' List.mem_cons_self) (by decide)
  rw [← isControl_iff, isControl, startsWithPresence]
  simp only [String.toList_append, isKey]
  cases present <;>
    simp [startsWithControlName, Clause.presenceKeyword, Lexeme.isNameChar, List.isPrefixOf,
      notEqual]

/-- The part of a presence clause in front of its equality sign is the key of its control. -/
theorem SpacedPresence.nameOf_contentOf (isSpaced : SpacedPresence key content text) :
    Control.nameOf text = key ∧ Control.contentOf text = content := by
  obtain ⟨⟨present, blanks, _, allBlank, isKey⟩, rfl⟩ := isSpaced
  refine Control.nameOf_contentOf ?_ content
  rw [isKey, List.forall_mem_append]
  constructor
  · cases present <;> simp [Clause.presenceKeyword]
  · rintro c isBlankChar rfl
    exact absurd (allBlank '=' isBlankChar) (by decide)

/-- No control of that key is known. -/
theorem SpacedPresence.unknown (isSpaced : SpacedPresence key content text) :
    key ∉ Control.knownKeys := by
  obtain ⟨⟨present, blanks, _, _, isKey⟩, _⟩ := isSpaced
  have second : ∀ known ∈ Control.knownKeys,
      known.toList[1]? ≠ some 'e' ∧ known.toList[1]? ≠ some '!' := by
    decide
  intro isKnown
  have other := second key isKnown
  rw [isKey] at other
  cases present with
  | true => exact other.1 rfl
  | false => exact other.2 rfl

/-- A text that starts with a control name and has the tokens of an expression starts with a
presence keyword and an equality sign, and only blanks stand between these. -/
theorem exists_presence_of_starts {tokens : List Token} (scanned : tokenize text = .ok tokens)
    (opens : OpensTerm tokens) (starts : startsWithControlName text.toList = true) :
    ∃ (present : Bool) (blanks rest : List Char), (∀ c ∈ blanks, isBlank c = true) ∧
      text.toList = (Clause.presenceKeyword present).toList ++ (blanks ++ '=' :: rest) := by
  obtain ⟨token, more, rfl, presence⟩ := opens
  obtain ⟨scan, reads, _, isTokens⟩ := reads_of_tokenize scanned
  obtain ⟨_, _, _, _, isDollar⟩ := startsWithControlName_iff.mp starts
  rw [isDollar] at reads
  obtain ⟨behind, next, later, isText, taken, further, isMore, _⟩ :=
    reads.first_of_not_blank (by decide) isTokens
  rw [← isDollar] at isText
  rw [isText] at starts
  obtain ⟨present, equal, others, spelled, rfl, isEqual⟩ :=
    presence (keyword_of_startsWithControlName starts taken)
  obtain ⟨blanks, rest, _, _, allBlank, isBehind, equalTaken, _⟩ := further.first isMore
  have equalSpelled : equal.text.toList = "=".toList := by
    have found := (firstLexeme?_eq_some_iff.mp equalTaken).1
    rw [isEqual] at found
    exact (Lexeme.spelled_eq_some_iff.mp found).1
  refine ⟨present, blanks, rest, allBlank, ?_⟩
  rw [isText, spelled, isBehind, equalSpelled]
  rfl

/-- Of the texts with the tokens of an expression, exactly the presence clauses with blanks behind
their keyword are taken for controls. -/
theorem directs_iff_spacedPresence {tokens : List Token} (scanned : tokenize text = .ok tokens)
    (opens : OpensTerm tokens) :
    Directs text ↔ ∃ key content, SpacedPresence key content text := by
  constructor
  · intro directs
    obtain ⟨present, blanks, rest, allBlank, isText⟩ :=
      exists_presence_of_starts scanned opens (startsWithControlName_iff.mpr directs.named)
    refine ⟨String.ofList ((Clause.presenceKeyword present).toList ++ blanks),
      String.ofList rest, ⟨present, blanks, ?_, allBlank, String.toList_ofList⟩, ?_⟩
    · -- Without blanks the text would start as presence clauses do.
      rintro rfl
      cases present with
      | true => exact directs.notPresence ⟨rest, by rw [isText]; rfl⟩
      | false => exact directs.notAbsence ⟨rest, by rw [isText]; rfl⟩
    · rw [← String.toList_inj, isText]
      simp
  · rintro ⟨key, content, isSpaced⟩
    exact isSpaced.directs

/-- A text with a character is the one segment of its encoding. -/
theorem writes_singleton {raw : String} (nonempty : text ≠ "")
    (encodes : Percent.Encodes text.toList raw.toList) : Writes [text] raw := by
  have rawNonempty : raw ≠ "" := by
    rintro rfl
    exact nonempty (String.toList_eq_nil_iff.mp encodes.decode.symm)
  have kept : [raw].filter (fun item => !item.isEmpty) = [raw] := by
    simp [rawNonempty]
  refine ⟨[raw], by simp [joined], ?_⟩
  rw [kept]
  exact .cons encodes .nil

/-- The one segment is a control or a filter. -/
theorem split_singleton {raw : String} (written : Writes [text] raw) :
    split raw = if Directs text then ⟨[text], []⟩ else ⟨[], [text]⟩ := by
  by_cases directs : Directs text
  · have isControl := isControl_iff.mpr directs
    simp [split, written.decodeAll, isControl, directs]
  · have isFilter : isControl text = false := Bool.eq_false_iff.mpr (mt isControl_iff.mp directs)
    simp [split, written.decodeAll, isFilter, directs]

end Segments

namespace Query

open Segments

variable {settings : Settings} {text raw : String} {before after : Insights} {filter : Filter}

/-- A text that is accepted is not empty and has tokens that start as those of a term do. -/
theorem opensTerm_of_accepted {depthLimit : Int}
    (accepted : parseFilter depthLimit text before = .ok filter after) :
    text ≠ "" ∧ ∃ tokens, tokenize text = .ok tokens ∧ OpensTerm tokens := by
  obtain ⟨tokens, scanned, _, derived, _, _⟩ := parseFilter_eq_ok.mp accepted
  refine ⟨?_, tokens, scanned, derived.opensTerm⟩
  rintro rfl
  cases scanned
  obtain ⟨_, _, isEmpty, _⟩ := derived.opensTerm
  cases isEmpty

/-- What is read of a query string with one filter and no controls. -/
theorem read_filter
    (accepted : parseFilter settings.maxNestingDepth text before = .ok filter after)
    (isSplit : Segments.split raw = ⟨[], [text]⟩) (fits : ¬ Exceeds settings.maxQueryLength raw)
    (trace : Trace) :
    ∃ last, read settings raw trace =
      .ok ⟨some filter, [], trace.insights.recordAll filter.expression.marks⟩ last := by
  obtain ⟨tokens, scanned, counted, derived, nested, _⟩ := parseFilter_eq_ok.mp accepted
  have isFilter : FilterOf settings.maxNestingDepth [text] (some filter) :=
    .written (List.cons_ne_nil _ _) (by simpa [joined] using scanned) counted derived nested
  refine ⟨_, read_eq_ok.mpr ⟨fits, ?_, trace, ?_, rfl, rfl⟩⟩
  · rw [isSplit]
    exact isFilter
  · rw [isSplit]
    rfl

/-- What is read of a query string with one control that is not known and without filters. -/
theorem read_unknown {key content : String} (isName : Control.nameOf text = key)
    (isContent : Control.contentOf text = content) (unknown : key ∉ Control.knownKeys)
    (isSplit : Segments.split raw = ⟨[text], []⟩) (fits : ¬ Exceeds settings.maxQueryLength raw)
    (trace : Trace) :
    ∃ last, read settings raw trace = .ok ⟨none, [(key, .text content)], trace.insights⟩ last := by
  subst isName isContent
  refine ⟨_, read_eq_ok.mpr
    ⟨fits, ?_, ⟨trace.insights, trace.log ++ Control.notes text⟩, ?_, rfl, rfl⟩⟩
  · rw [isSplit]
    exact .absent
  · rw [isSplit, Control.applyAll, List.foldlM_cons]
    simp only [bind, EStateM.bind, Control.apply_of_unknown unknown]
    rfl

/-- A text that is accepted as a filter is read as that filter when its encoding is the query
string. Only if it starts with a presence keyword and blanks stand between this and the equality
sign, it is no filter but is passed on as a control. -/
theorem read_encoded
    (accepted : parseFilter settings.maxNestingDepth text before = .ok filter after)
    (encodes : Percent.Encodes text.toList raw.toList) (trace : Trace) :
    ((¬ ∃ key content, SpacedPresence key content text) →
      Segments.split raw = ⟨[], [text]⟩ ∧
      (¬ Exceeds settings.maxQueryLength raw →
        ∃ last, read settings raw trace =
          .ok ⟨some filter, [], trace.insights.recordAll filter.expression.marks⟩ last)) ∧
    ∀ key content, SpacedPresence key content text →
      Segments.split raw = ⟨[text], []⟩ ∧
      (¬ Exceeds settings.maxQueryLength raw →
        ∃ last, read settings raw trace =
          .ok ⟨none, [(key, .text content)], trace.insights⟩ last) := by
  obtain ⟨nonempty, tokens, scanned, opens⟩ := opensTerm_of_accepted accepted
  have isSplit := split_singleton (writes_singleton nonempty encodes)
  have directs := directs_iff_spacedPresence scanned opens
  constructor
  · intro notSpaced
    rw [if_neg (mt directs.mp notSpaced)] at isSplit
    exact ⟨isSplit, fun fits => read_filter accepted isSplit fits trace⟩
  · intro key content isSpaced
    rw [if_pos isSpaced.directs] at isSplit
    obtain ⟨isName, isContent⟩ := isSpaced.nameOf_contentOf
    exact ⟨isSplit, fun fits =>
      read_unknown isName isContent isSpaced.unknown isSplit fits trace⟩

/-- No blank stands behind the keyword. -/
def absenceBesideQuoted : Disjunction :=
  .single (.and (.clause (.presence false "a" []))
    (.single (.clause (.comparison "b" .equal (.quoted "%")))))

/-- Encoded or not, the keyword makes the whole text a filter, the quoted percent sign included.
-/
theorem read_encoded_absenceBesideQuoted :
    ∃ filter after last,
      parseFilter 100 "$!exists=a&b='%'" Insights.empty = .ok filter after ∧
      Segments.split "$%21exists=a%26b='%25'" = ⟨[], ["$!exists=a&b='%'"]⟩ ∧
      read {} "$%21exists=a%26b='%25'" Trace.empty = .ok ⟨some filter, [], after⟩ last ∧
      filter.node =
        .comparison [("a", .map [("$exists", .bool false)]), ("b", .text "%")] := by
  have writable : absenceBesideQuoted.isWritable = true := by rfl
  have nested : absenceBesideQuoted.NestedWithin 100 := .inr (by decide)
  obtain ⟨tokens, scanned, derived⟩ := Disjunction.tokenize_source writable
  have accepted : parseFilter ({} : Settings).maxNestingDepth "$!exists=a&b='%'" Insights.empty =
      .ok ⟨absenceBesideQuoted, tokens.length⟩ _ :=
    parseFilter_eq_ok.mpr ⟨tokens, scanned, rfl, derived, nested, rfl⟩
  have mark : Percent.Escapes (String.utf8EncodeChar '!') "%21".toList :=
    .cons (by decide) (by decide) .nil
  have separator : Percent.Escapes (String.utf8EncodeChar '&') "%26".toList :=
    .cons (by decide) (by decide) .nil
  have percent : Percent.Escapes (String.utf8EncodeChar '%') "%25".toList :=
    .cons (by decide) (by decide) .nil
  have encodes : Percent.Encodes "$!exists=a&b='%'".toList "$%21exists=a%26b='%25'".toList :=
    .append (@Percent.Encodes.plain "$".toList (by simp)) (.cons (.escaped mark)
      (.append (@Percent.Encodes.plain "exists=a".toList (by simp)) (.cons (.escaped separator)
        (.append (@Percent.Encodes.plain "b='".toList (by simp)) (.cons (.escaped percent)
          (@Percent.Encodes.plain "'".toList (by simp)))))))
  have notSpaced : ¬ ∃ key content, SpacedPresence key content "$!exists=a&b='%'" := by
    rintro ⟨_, _, isSpaced⟩
    exact absurd isSpaced.directs (by decide)
  obtain ⟨isSplit, isRead⟩ := (read_encoded accepted encodes Trace.empty).1 notSpaced
  obtain ⟨last, success⟩ := isRead (not_exceeds_none _)
  exact ⟨_, _, last, accepted, isSplit, success, by rfl⟩

/-- With a blank behind the keyword the filter is lost. -/
theorem read_spacedPresence :
    ∃ filter after last,
      parseFilter 100 "$exists =a" Insights.empty = .ok filter after ∧
      filter.node = .comparison [("a", .map [("$exists", .bool true)])] ∧
      Percent.Encodes "$exists =a".toList "$exists =a".toList ∧
      Segments.split "$exists =a" = ⟨["$exists =a"], []⟩ ∧
      read {} "$exists =a" Trace.empty =
        .ok ⟨none, [("$exists ", .text "a")], Insights.empty⟩ last := by
  have scanned : tokenize "$exists =a" =
      .ok [⟨.keyword, "$exists", 0⟩, ⟨.equal, "=", 8⟩, ⟨.word, "a", 9⟩] := by
    rfl
  have presence : Clause.Derives (.presence true "a" [])
      [⟨.keyword, "$exists", 0⟩, ⟨.equal, "=", 8⟩, ⟨.word, "a", 9⟩] :=
    .presence rfl rfl rfl (.last (@FieldDerives.token ⟨.word, "a", 9⟩ rfl))
  have accepted : parseFilter 100 "$exists =a" Insights.empty =
      .ok ⟨.single (.single (.clause (.presence true "a" []))), 3⟩ _ :=
    parseFilter_eq_ok.mpr
      ⟨_, scanned, rfl, .single (.single (.clause presence)), .inr (by decide), rfl⟩
  have encodes : Percent.Encodes "$exists =a".toList "$exists =a".toList :=
    .plain (by simp)
  have isBlankSpace : ∀ c ∈ [' '], isBlank c = true :=
    List.forall_mem_singleton.mpr (by decide)
  have isSpaced : SpacedPresence "$exists " "a" "$exists =a" :=
    ⟨⟨true, [' '], List.cons_ne_nil _ _, isBlankSpace, rfl⟩, rfl⟩
  have isSplit := split_singleton (writes_singleton (by decide) encodes)
  rw [if_pos isSpaced.directs] at isSplit
  have fits : ¬ Exceeds ({} : Settings).maxQueryLength "$exists =a" := not_exceeds_none _
  obtain ⟨isName, isContent⟩ := isSpaced.nameOf_contentOf
  obtain ⟨last, success⟩ :=
    read_unknown isName isContent isSpaced.unknown isSplit fits Trace.empty
  exact ⟨_, _, last, accepted, by rfl, encodes, isSplit, success⟩

end Query

end UrlFilter
