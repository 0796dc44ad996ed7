import UrlFilter.Proofs.Failure
import UrlFilter.Proofs.Query.Read
import UrlFilter.Proofs.Query.Refusal

/-!
# Failures of a query string

A query string that is no query is too long, has a counting control without an integer, or has
a filter text that fails at a place in it. Three failures are not announced: fields that are
given to `$order` after text has been passed on for `$sort`, an integer of the filter with too
many digits, and a limit with so many digits that no report can name it.
-/

namespace UrlFilter

open Text Numeral

/-- The token is a number of the text that has no point and too many digits for an integer. -/
structure Token.LongNumeralIn (token : Token) (text : String) : Prop where
  scanned : ∃ tokens, tokenize text = .ok tokens ∧ token ∈ tokens
  isNumber : token.kind = .number
  noPoint : '.' ∉ token.text.toList
  long : Integer.digitLimit < token.digitCount

/-- A text with such a token is no filter. -/
theorem Token.LongNumeralIn.not_derives {token : Token} {text : String} {tokens : List Token}
    {expression : Disjunction} (longNumeral : token.LongNumeralIn text)
    (scanned : tokenize text = .ok tokens) : ¬ expression.Derives tokens := by
  intro derived
  obtain ⟨others, scannedAgain, isToken⟩ := longNumeral.scanned
  rw [scanned] at scannedAgain
  cases scannedAgain
  obtain ⟨_, back, taken⟩ := takenFrom_of_tokenize scanned token isToken
  have found := (firstLexeme?_eq_some_iff.mp taken.taken).1
  rw [longNumeral.isNumber] at found
  have unread := Literal.readNumber_of_long found longNumeral.noPoint longNumeral.long
  obtain ⟨literal, reads⟩ := derived.convertible token isToken (.inl longNumeral.isNumber)
  rw [Literal.ofToken, longNumeral.isNumber, unread] at reads
  cases reads

namespace Query

variable {settings : Settings} {raw : String} {trace after : Trace} {failure : QueryFailure}

/-- The text of the filter in a query string. -/
def filterText (raw : String) : String :=
  joined "&" (Segments.split raw).filters

/-- The failures that reading a query string announces, each with what is to blame. -/
inductive Announced (settings : Settings) (raw : String) : QueryFailure → Prop where
  | tooLong {limit : Int} (limited : settings.maxQueryLength = some limit)
      (long : limit < raw.length) : Announced settings raw (.tooLong raw.length limit)
  | invalidControl {segment : String} (isControl : segment ∈ (Segments.split raw).controls)
      (counts : Control.nameOf segment ∈ Control.countingKeys)
      (unread : ¬ Control.Countable segment) :
      Announced settings raw
        (.control (.notAnInteger (Control.nameOf segment) (Control.contentOf segment)))
  | unknownCharacter {error : LexicalError}
      (located : (ParseFailure.lexical error).LocatedIn (filterText raw)) :
      Announced settings raw (.filter (.lexical error))
  | notExpression {error : GrammarError}
      (located : (ParseFailure.grammar error).LocatedIn (filterText raw)) :
      Announced settings raw (.filter (.grammar error))

/-- The classes of the failures that are announced. -/
def announcedClasses : List ErrorClass :=
  [.queryTooLong, .invalidControl, .lexical, .grammar]

/-- A report of the failure is made, and under one of the announced classes. -/
def Reported (failure : QueryFailure) : Prop :=
  ∃ report, failure.report? = some (.ok report) ∧ report.errorClass ∈ announcedClasses

/-- A number that a report of a failure may name has too many digits to be described. -/
inductive LongNumber (settings : Settings) (raw : String) : Prop where
  | lengthLimit {limit : Int} (limited : settings.maxQueryLength = some limit)
      (long : ¬ Integer.IsShort limit)
  | depthLimit (long : ¬ Integer.IsShort settings.maxNestingDepth)
  | length (long : ¬ Integer.IsShort raw.length)
  | filterLength (long : ¬ Integer.IsShort (filterText raw).length)

/-- A failure is reported if a report of it is made at a place. -/
theorem reported_of_madeAt {made : Except DescribeError Report} {errorClass : ErrorClass}
    {offset : Int} {token : Option String} (isReport : failure.report? = some made)
    (madeAt : Report.MadeAt made errorClass offset token)
    (isAnnounced : errorClass ∈ announcedClasses) : Reported failure := by
  obtain ⟨report, rfl, points⟩ := madeAt
  exact ⟨report, isReport, points.errorClass ▸ isAnnounced⟩

/-- A query string that is too long is reported unless its length or the limit is not short. -/
theorem reported_tooLong (length : Nat) (limit : Int) :
    Reported (.tooLong length limit) ∨
      (QueryFailure.tooLong length limit).report? = some (.error .tooManyDigits) ∧
        (¬ Integer.IsShort length ∨ ¬ Integer.IsShort limit) := by
  have isMade : QueryFailure.lengthReport length limit = _ := Report.make_eq _ _ _
  have named : Value.integersOfEntries [("length", .int length), ("limit", .int limit)] =
      [(length : Int), limit] := rfl
  rw [named] at isMade
  split at isMade
  · exact .inl ⟨_, congrArg some isMade, by simp [announcedClasses]⟩
  · next notShort =>
    refine .inr ⟨congrArg some isMade, ?_⟩
    rwa [List.forall_mem_cons, List.forall_mem_singleton, Classical.not_and_iff_not_or_not]
      at notShort

/-- A counting control without an integer is reported, as its report names no integers. -/
theorem reported_notAnInteger (key value : String) :
    Reported (.control (.notAnInteger key value)) := by
  have isMade : ControlFailure.integerReport key value = _ := Report.make_eq _ _ _
  rw [if_pos (by intro _ named; cases named)] at isMade
  exact ⟨_, congrArg some isMade, by simp [announcedClasses]⟩

/-- A failure in the filter text is reported and announced, or it is that of a numeral with too
many digits, or its report would name a number that is not short. -/
theorem filter_failures {failure : ParseFailure}
    (outcome : failure.LocatedIn (filterText raw) ∨
      failure.UndescribedIn settings.maxNestingDepth (filterText raw)) :
    (Announced settings raw (.filter failure) ∧ Reported (.filter failure)) ∨
      (∃ token : Token, failure = .integer (.tooManyDigits token.digitCount) ∧
        token.LongNumeralIn (filterText raw)) ∨
      (QueryFailure.filter failure).report? = some (.error .tooManyDigits) ∧
        LongNumber settings raw := by
  rcases outcome with located | undescribed
  · cases located with
    | character made stands =>
      exact .inl ⟨.unknownCharacter (.character made stands),
        reported_of_madeAt rfl made (by decide)⟩
    | token made scanned isToken stands =>
      exact .inl ⟨.notExpression (.token made scanned isToken stands),
        reported_of_madeAt rfl made (by decide)⟩
    | endOfText made =>
      exact .inl ⟨.notExpression (.endOfText made), reported_of_madeAt rfl made (by decide)⟩
    | longNumeral scanned isToken isNumber noPoint long =>
      exact .inr (.inl ⟨_, rfl, ⟨⟨_, scanned, isToken⟩, isNumber, noPoint, long⟩⟩)
  · cases undescribed with
    | limit _ _ long unmade => exact .inr (.inr ⟨congrArg some unmade, .depthLimit long⟩)
    | offset long unmade => exact .inr (.inr ⟨unmade, .filterLength long⟩)

/-- A failure to read the filter segments is one in the filter text. -/
theorem readFilter_eq_error {depthLimit : Int} {segments : List String}
    (failed : readFilter depthLimit segments trace = .error failure after) :
    ∃ refusal : ParseFailure, failure = .filter refusal ∧
      (refusal.LocatedIn (joined "&" segments) ∨
        refusal.UndescribedIn depthLimit (joined "&" segments)) := by
  unfold readFilter at failed
  split at failed
  · cases failed
  · split at failed
    · cases failed
    · next refusal insights parsed =>
      cases failed
      exact ⟨refusal, rfl, parseFilter_error parsed⟩

/-- A query string fails at its length, at a control or in its filter text. -/
theorem read_eq_error (failed : read settings raw trace = .error failure after) :
    (∃ limit : Int, settings.maxQueryLength = some limit ∧ limit < raw.length ∧
      failure = .tooLong raw.length limit) ∨
    (∃ refusal, Control.applyAll (Segments.split raw).controls trace = .error refusal after ∧
      failure = .control refusal) ∨
    ∃ refusal : ParseFailure, failure = .filter refusal ∧
      (refusal.LocatedIn (filterText raw) ∨
        refusal.UndescribedIn settings.maxNestingDepth (filterText raw)) := by
  by_cases exceeds : Exceeds settings.maxQueryLength raw
  · obtain ⟨limit, limited, long⟩ := exceeds
    rw [read_of_lt limited long] at failed
    cases failed
    exact .inl ⟨limit, limited, long, rfl⟩
  · rw [read_of_not_exceeds exceeds] at failed
    split at failed
    · next refusal middle applied =>
      cases failed
      exact .inr (.inl ⟨refusal, applied, rfl⟩)
    · split at failed
      · next inFilter =>
        cases failed
        exact .inr (.inr (readFilter_eq_error inFilter))
      · cases failed

/-- Fields are given to text exactly if the controls of a query string that is not too long are
out of order. -/
theorem read_notFlags_iff :
    (∃ after, read settings raw trace = .error (.control (.notFlags Control.sortKey)) after) ↔
      ¬ Exceeds settings.maxQueryLength raw ∧
        Control.Misordered (Segments.split raw).controls := by
  constructor
  · rintro ⟨after, failed⟩
    constructor
    · rintro ⟨limit, limited, long⟩
      rw [read_of_lt limited long] at failed
      cases failed
    · rcases read_eq_error failed with ⟨_, _, _, same⟩ | ⟨refusal, refused, same⟩ | ⟨_, same, _⟩
      · cases same
      · cases same
        rcases Control.applyAll_error refused with ⟨_, _, _, _, same⟩ | ⟨_, misordered⟩
        · cases same
        · exact misordered
      · cases same
  · rintro ⟨fits, misordered⟩
    obtain ⟨after, failed⟩ := Control.applyAll_of_misordered misordered trace
    rw [read_of_not_exceeds fits, failed]
    exact ⟨after, rfl⟩

/-- A query string with a numeral that is too long for an integer is not read as a query. -/
theorem not_read_of_longNumeral {token : Token} {query : Query}
    (longNumeral : token.LongNumeralIn (filterText raw)) :
    read settings raw trace ≠ .ok query after := by
  intro success
  obtain ⟨_, isFilter, _⟩ := read_eq_ok.mp success
  unfold filterText at longNumeral
  generalize (Segments.split raw).filters = segments at isFilter longNumeral
  generalize query.filter = filter at isFilter
  cases isFilter with
  | absent =>
    obtain ⟨tokens, scanned, isToken⟩ := longNumeral.scanned
    have nothing : tokenize (joined "&" []) = .ok [] := by rfl
    rw [nothing] at scanned
    cases scanned
    cases isToken
  | written _ scanned _ derived _ => exact longNumeral.not_derives scanned derived

/-- How reading a query string fails. A failure is announced and reported, or fields were given to
`$order` after text had been passed on for `$sort`, or a numeral has too many digits for an
integer, or a number that the report would name has too many digits to be described. The second
happens exactly if the controls are out of order, and a query string with a numeral that is too
long is never read. A control that is passed on, other than one for `$sort`, has no part in any
failure. -/
theorem read_failures (settings : Settings) (raw : String) (trace : Trace) :
    (∀ failure after, read settings raw trace = .error failure after →
      (Announced settings raw failure ∧ Reported failure) ∨
      (failure = .control (.notFlags Control.sortKey) ∧
        Control.Misordered (Segments.split raw).controls) ∨
      (∃ token : Token, failure = .filter (.integer (.tooManyDigits token.digitCount)) ∧
        token.LongNumeralIn (filterText raw)) ∨
      failure.report? = some (.error .tooManyDigits) ∧ LongNumber settings raw) ∧
    ((∃ after, read settings raw trace = .error (.control (.notFlags Control.sortKey)) after) ↔
      ¬ Exceeds settings.maxQueryLength raw ∧
        Control.Misordered (Segments.split raw).controls) ∧
    (∀ token : Token, token.LongNumeralIn (filterText raw) →
      ∀ query after, read settings raw trace ≠ .ok query after) ∧
    ∀ failure,
      (∃ after, Control.applyAll (Segments.split raw).controls trace = .error failure after) ↔
        ∃ after, Control.applyAll
          ((Segments.split raw).controls.filter (Control.Matters ·)) trace =
            .error failure after := by
  refine ⟨?_, read_notFlags_iff, fun _ longNumeral _ _ => not_read_of_longNumeral longNumeral,
    fun _ => Control.applyAll_error_filter⟩
  intro failure after failed
  rcases read_eq_error failed with ⟨limit, limited, long, rfl⟩ | ⟨refusal, refused, rfl⟩ |
    ⟨refusal, rfl, outcome⟩
  · rcases reported_tooLong raw.length limit with reported | ⟨unmade, longLength | longLimit⟩
    · exact .inl ⟨.tooLong limited long, reported⟩
    · exact .inr (.inr (.inr ⟨unmade, .length longLength⟩))
    · exact .inr (.inr (.inr ⟨unmade, .lengthLimit limited longLimit⟩))
  · rcases Control.applyAll_error refused with ⟨segment, isControl, counts, unread, rfl⟩ |
      ⟨rfl, misordered⟩
    · exact .inl ⟨.invalidControl isControl counts unread, reported_notAnInteger _ _⟩
    · exact .inr (.inl ⟨rfl, misordered⟩)
  · rcases filter_failures outcome with reported | ⟨token, rfl, longNumeral⟩ | unmade
    · exact .inl reported
    · exact .inr (.inr (.inl ⟨token, rfl, longNumeral⟩))
    · exact .inr (.inr (.inr unmade))

/-- Text that is passed on for `$sort` makes a query string fail in a way that is not announced;
without that control the query string is read as a query. -/
theorem not_announced_orderAfterSort :
    (∃ after,
      read {} "$sort=x&$order=a" Trace.empty = .error (.control (.notFlags "$sort")) after) ∧
      ¬ Announced {} "$sort=x&$order=a" (.control (.notFlags "$sort")) ∧
      ∃ query after, read {} "$order=a" Trace.empty = .ok query after := by
  have fits : ∀ raw, ¬ Exceeds none raw := by
    rintro raw ⟨_, limited, _⟩
    cases limited
  refine ⟨?_, ?_, ?_⟩
  · have split : Segments.split "$sort=x&$order=a" = ⟨["$sort=x", "$order=a"], []⟩ := by rfl
    have misordered : Control.Misordered ["$sort=x", "$order=a"] :=
      ⟨["$sort=x"], "$order=a", [], rfl, by decide, ⟨"$sort=x", by decide, by decide⟩, by
        intro segment isBefore counts
        rw [List.mem_singleton.mp isBefore] at counts
        exact absurd counts (by decide)⟩
    exact read_notFlags_iff.mpr ⟨fits _, split ▸ misordered⟩
  · intro announced
    cases announced
  · have split : Segments.split "$order=a" = ⟨["$order=a"], []⟩ := by rfl
    have applied : Control.applyAll ["$order=a"] Trace.empty =
        .ok [("$sort", .flags [("a", 1)])] ⟨⟨[("a", ["$order"])]⟩, []⟩ := by
      rfl
    rw [exists_read_iff, split]
    exact ⟨fits _, ⟨none, .absent⟩, _, _, applied⟩

end Query

end UrlFilter
