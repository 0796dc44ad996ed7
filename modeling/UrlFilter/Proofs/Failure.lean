import UrlFilter.Proofs.Expression.Tree
import UrlFilter.Proofs.Numeral.Read
import UrlFilter.Proofs.Parser.Failure
import UrlFilter.Proofs.Regex
import UrlFilter.Proofs.Report
import UrlFilter.Proofs.Settings
import UrlFilter.Proofs.Token.Scan

/-!
# Located failures

A text that is no filter fails at a place in the text: at a character where no token starts,
at one of its tokens, or at its end. A failure has no place if an integer has too many digits:
a numeral of the text that cannot be read, or a number that the report cannot name.
-/

namespace UrlFilter

open UrlFilter.Text UrlFilter.Numeral UrlFilter.Lexeme

/-- The details point at the offset and at the text that stands there. -/
structure Table.PointsAt (details : Table Value) (offset : Int) (token : Option String) : Prop where
  offset : details.get? "offset" = some (.int offset)
  token : details.get? "token" = some (token.elim .null .text)

/-- The report is of the class and points at the offset and at the text that stands there. -/
structure Report.PointsAt (report : Report) (errorClass : ErrorClass) (offset : Int)
    (token : Option String) : Prop where
  errorClass : report.errorClass = errorClass
  details : report.details.PointsAt offset token

/-- A report of the class is made, and it points at the offset and at the text that stands
there. -/
def Report.MadeAt (made : Except DescribeError Report) (errorClass : ErrorClass) (offset : Int)
    (token : Option String) : Prop :=
  ∃ report, made = .ok report ∧ report.PointsAt errorClass offset token

/-- Details that name a place point there, unless further details hide it. -/
theorem Report.placeDetails_pointsAt (offset : Int) (token : Option String)
    {details : Table Value} (others : ∀ key ∈ details.keys, key ≠ "offset" ∧ key ≠ "token") :
    (placeDetails offset token details).PointsAt offset token := by
  have kept : ∀ key, key ∉ details.keys →
      ∀ table : Table Value, (table.update details).get? key = table.get? key := by
    intro key absent table
    clear others
    induction details generalizing table with
    | nil => rfl
    | cons entry rest inductionHypothesis =>
      simp only [Table.keys, List.map_cons, List.mem_cons, not_or] at absent
      have further := inductionHypothesis absent.2 (table.put entry.1 entry.2)
      rw [Table.get?_put, if_neg absent.1] at further
      exact further
  constructor
  · exact kept "offset" (fun isKey => (others _ isKey).1 rfl) _
  · exact kept "token" (fun isKey => (others _ isKey).2 rfl) _

/-- A report is made at a place if its details point there and all integers in them are short. -/
theorem Report.madeAt_make {errorClass : ErrorClass} {message : String} {details : Table Value}
    {offset : Int} {token : Option String} (points : details.PointsAt offset token)
    (short : ∀ number ∈ Value.integersOfEntries details, Integer.IsShort number) :
    MadeAt (make errorClass message details) errorClass offset token :=
  ⟨_, by rw [make_eq, if_pos short], rfl, points⟩

/-- The report of a character that starts no token is made at it if its offset is short. -/
theorem LexicalError.report_madeAt {error : LexicalError} (short : Integer.IsShort error.offset) :
    Report.MadeAt error.report .lexical error.offset (some error.char.toString) :=
  Report.madeAt_make (Report.placeDetails_pointsAt _ _ (by simp [Table.keys]))
    (by rwa [Report.integersOfEntries_placeDetails, List.forall_mem_singleton])

/-- Without a short offset there is no report of a character that starts no token. -/
theorem LexicalError.report_eq_error {error : LexicalError}
    (long : ¬ Integer.IsShort error.offset) : error.report = .error .tooManyDigits :=
  Report.make_eq_error (by rw [Report.integersOfEntries_placeDetails, List.mem_singleton]) long

namespace GrammarError

/-- The details of a token that does not belong where it stands point at it. -/
theorem unexpected_pointsAt (objection : Objection) (token : Token) :
    (unexpected objection token).details.PointsAt token.offset (some token.text) := by
  refine Report.placeDetails_pointsAt _ _ ?_
  cases objection <;> simp [objectionDetails, Table.keys]

/-- The details of an input that ends too early point at its end. -/
theorem endOfInput_pointsAt (expected : Option Kind) (offset : Int) :
    (endOfInput expected offset).details.PointsAt offset none :=
  Report.placeDetails_pointsAt _ _ (by simp [Table.keys])

end GrammarError

/-- The token stands in the text where its offset says. -/
structure Token.StandsIn (token : Token) (text : String) : Prop where
  start : 0 ≤ token.offset
  stop : token.stop ≤ text.length
  slice : (text.toList.drop token.offset.toNat).take token.text.length = token.text.toList

/-- A token that is taken from a text stands in it. -/
theorem Token.TakenFrom.standsIn {text : String} {token : Token} {front back : List Char}
    (taken : token.TakenFrom text.toList front back) : token.StandsIn text := by
  obtain ⟨start, stop, slice⟩ := Token.slice_of_append back taken.offset
  rw [← taken.text] at stop slice
  rw [String.length_toList] at stop
  exact ⟨start, stop, slice⟩

/-- The digits in the text of a token. -/
def Token.digitCount (token : Token) : Nat :=
  (token.text.toList.filter isDecimalDigit).length

/-- A number without a point is read unless it has too many digits. -/
theorem Literal.readNumber_whole {token : Token} {sign whole : List Char} (isSign : IsSign sign)
    (isWhole : IsWhole whole) (same : token.text.toList = sign ++ whole) :
    Literal.readNumber token.text =
      if Integer.digitLimit < token.digitCount then
        .error (.integer (.tooManyDigits token.digitCount))
      else .ok (.integer (if sign = ['-'] then -(ofDigits (digitValues whole) : Int)
        else ofDigits (digitValues whole))) := by
  have characters : token.text = String.ofList (sign ++ whole) := by
    rw [← same, String.ofList_toList]
  have counted : token.digitCount = whole.length := by
    rw [Token.digitCount, same, isWhole.filter_digits isSign]
  have withoutPoint : token.text.toList.contains '.' = false := by
    rw [same]
    simpa using isWhole.noPoint isSign
  have isRead := Integer.read_whole isSign isWhole
  rw [← characters, ← counted] at isRead
  rw [Literal.readNumber, if_neg (by simpa using withoutPoint), isRead]
  by_cases long : Integer.digitLimit < token.digitCount <;> simp only [long, if_true, if_false]

/-- A lexeme of a number is read unless it has no point and too many digits. -/
theorem Literal.readNumber_error {token : Token} {rest : List Char} {failure : ParseFailure}
    (found : number (token.text.toList ++ rest) = some token.text.toList)
    (unread : Literal.readNumber token.text = .error failure) :
    failure = .integer (.tooManyDigits token.digitCount) ∧ '.' ∉ token.text.toList ∧
      Integer.digitLimit < token.digitCount := by
  obtain ⟨sign, whole, fraction, _, same, _, isSign, isWhole, isFraction, _⟩ :=
    number_eq_some_iff.mp found
  rcases isFraction with rfl | ⟨digits, rfl, nonempty, all⟩
  · rw [List.append_nil] at same
    have noPoint : '.' ∉ token.text.toList := by
      rw [same]
      exact isWhole.noPoint isSign
    rw [Literal.readNumber_whole isSign isWhole same] at unread
    split at unread
    · next long =>
      cases unread
      exact ⟨rfl, noPoint, long⟩
    · cases unread
  · have characters : token.text = String.ofList (sign ++ (whole ++ '.' :: digits)) := by
      rw [← same, String.ofList_toList]
    obtain ⟨number, isRead⟩ := Decimal.exists_read_fraction isSign isWhole nonempty all
    have point : token.text.toList.contains '.' = true := by
      simp [same]
    rw [← characters] at isRead
    simp only [Literal.readNumber, point, if_true, isRead] at unread
    cases unread

/-- A lexeme of a number that has no point and too many digits is not read. -/
theorem Literal.readNumber_of_long {token : Token} {rest : List Char}
    (found : number (token.text.toList ++ rest) = some token.text.toList)
    (noPoint : '.' ∉ token.text.toList) (long : Integer.digitLimit < token.digitCount) :
    Literal.readNumber token.text = .error (.integer (.tooManyDigits token.digitCount)) := by
  obtain ⟨sign, whole, fraction, _, same, _, isSign, isWhole, isFraction, _⟩ :=
    number_eq_some_iff.mp found
  rcases isFraction with rfl | ⟨digits, rfl, _, _⟩
  · rw [List.append_nil] at same
    rw [Literal.readNumber_whole isSign isWhole same, if_pos long]
  · exact absurd (by simp [same]) noPoint

/-- A token that is taken from a text is read as a literal unless it is of another kind or a
number without a point that has too many digits. -/
theorem Token.TakenFrom.ofToken_error {text front back : List Char} {token : Token}
    {failure : ParseFailure} (taken : token.TakenFrom text front back)
    (unread : Literal.ofToken token = .error failure) :
    (failure = .grammar (.unexpected .notLiteral token) ∧ token.kind ∉ Kind.literals) ∨
      (failure = .integer (.tooManyDigits token.digitCount) ∧ token.kind = .number ∧
        '.' ∉ token.text.toList ∧ Integer.digitLimit < token.digitCount) := by
  have found := (firstLexeme?_eq_some_iff.mp taken.taken).1
  unfold Literal.ofToken at unread
  cases isKind : token.kind with
  | regex =>
    rw [isKind] at found unread
    obtain ⟨pattern, flags, _, same, _, _, letters, _⟩ := regex_eq_some_iff.mp found
    obtain ⟨literal, isRead, _⟩ := Regex.exists_ofSource same letters
    simp [Literal.readRegex, isRead] at unread
  | number =>
    rw [isKind] at found unread
    obtain ⟨isFailure, noPoint, long⟩ := Literal.readNumber_error found unread
    exact .inr ⟨isFailure, rfl, noPoint, long⟩
  | quoted | phrase | boolean | null | word => simp [isKind] at unread
  | notEqual | atLeast | atMost | matching | equal | greater | less | or | and | openGroup
  | closeGroup | openList | closeList | comma | bang | keyword | blank =>
    simp only [isKind, Except.error.injEq] at unread
    exact .inl ⟨unread.symm, by decide⟩

/-- Where in a text a failure is located. -/
inductive ParseFailure.LocatedIn (text : String) : ParseFailure → Prop where
  /-- At a character. -/
  | character {error : LexicalError}
      (made : Report.MadeAt error.report .lexical error.offset (some error.char.toString))
      (stands : text.toList[error.offset]? = some error.char) : LocatedIn text (.lexical error)
  /-- At a token. -/
  | token {error : GrammarError} {tokens : List Token} {token : Token}
      (made : Report.MadeAt error.report .grammar token.offset (some token.text))
      (scanned : tokenize text = .ok tokens) (isToken : token ∈ tokens)
      (stands : token.StandsIn text) : LocatedIn text (.grammar error)
  /-- At the end. -/
  | endOfText {error : GrammarError}
      (made : Report.MadeAt error.report .grammar text.length none) :
      LocatedIn text (.grammar error)
  /-- Nowhere, although a token is to blame: its digits are too many for an integer. -/
  | longNumeral {tokens : List Token} {token : Token} (scanned : tokenize text = .ok tokens)
      (isToken : token ∈ tokens) (isNumber : token.kind = .number)
      (noPoint : '.' ∉ token.text.toList) (long : Integer.digitLimit < token.digitCount) :
      LocatedIn text (.integer (.tooManyDigits token.digitCount))

/-- A failure in a text has no report, since the report would name an integer that has too many
digits to be described. -/
inductive ParseFailure.UndescribedIn (depthLimit : Int) (text : String) : ParseFailure → Prop where
  /-- A group is nested too deep for a limit that cannot be described. -/
  | limit {tokens : List Token} {token : Token} (scanned : tokenize text = .ok tokens)
      (isToken : token ∈ tokens) (long : ¬ Integer.IsShort depthLimit)
      (unmade : (GrammarError.unexpected (.tooDeep depthLimit) token).report =
        .error .tooManyDigits) :
      UndescribedIn depthLimit text (.grammar (.unexpected (.tooDeep depthLimit) token))
  /-- The text is so long that an offset in it cannot be described. -/
  | offset {failure : ParseFailure} (long : ¬ Integer.IsShort text.length)
      (unmade : failure.report? = some (.error .tooManyDigits)) :
      UndescribedIn depthLimit text failure

variable {text : String}

/-- Every failure has a report if the limit and the length of the text are short. -/
theorem ParseFailure.UndescribedIn.long {depthLimit : Int} {failure : ParseFailure}
    (undescribed : failure.UndescribedIn depthLimit text) :
    ¬ (Integer.IsShort depthLimit ∧ Integer.IsShort text.length) := by
  rintro ⟨shortLimit, shortText⟩
  cases undescribed with
  | limit _ _ long _ => exact long shortLimit
  | offset long _ => exact long shortText

/-- An offset in a text is short if the length of the text is. -/
theorem shortOffset_of_le {offset : Int} (start : 0 ≤ offset) (inside : offset ≤ text.length)
    (short : Integer.IsShort text.length) : Integer.IsShort offset :=
  short.of_natAbs_le (by omega)

/-- A text without tokens fails at a character of it. -/
theorem LexicalError.located_or_undescribed {error : LexicalError} (depthLimit : Int)
    (stuck : tokenize text = .error error) :
    (ParseFailure.lexical error).LocatedIn text ∨
      (ParseFailure.lexical error).UndescribedIn depthLimit text := by
  obtain ⟨before, back, characters, offset, _⟩ := stuckAt_of_tokenize stuck
  have stands : text.toList[error.offset]? = some error.char := by
    rw [characters, offset, List.getElem?_append_right (Nat.le_refl _), Nat.sub_self]
    rfl
  by_cases short : Integer.IsShort error.offset
  · exact .inl (.character (LexicalError.report_madeAt short) stands)
  · have inside : error.offset < text.length := (List.getElem?_eq_some_iff.mp stands).1
    have long : ¬ Integer.IsShort text.length := fun shortText =>
      short (shortOffset_of_le (Int.natCast_nonneg _) (by omega) shortText)
    exact .inr (.offset long (congrArg some (LexicalError.report_eq_error short)))

/-- A token of a text that does not belong where it stands is where the failure is located. -/
theorem Token.located_or_undescribed {tokens : List Token} {token : Token} {objection : Objection}
    {depthLimit : Int} (scanned : tokenize text = .ok tokens) (isToken : token ∈ tokens)
    (limited : ∀ limit, objection = .tooDeep limit → limit = depthLimit) :
    (ParseFailure.grammar (.unexpected objection token)).LocatedIn text ∨
      (ParseFailure.grammar (.unexpected objection token)).UndescribedIn depthLimit text := by
  obtain ⟨_, _, taken⟩ := takenFrom_of_tokenize scanned _ isToken
  have stands := taken.standsIn
  by_cases short : ∀ number ∈ Value.integersOfEntries
      (GrammarError.unexpected objection token).details, Integer.IsShort number
  · exact .inl (.token (Report.madeAt_make (GrammarError.unexpected_pointsAt _ _) short) scanned
      isToken stands)
  · have unmade : (GrammarError.unexpected objection token).report = .error .tooManyDigits := by
      rw [GrammarError.report, Report.make_eq, if_neg short]
    by_cases shortText : Integer.IsShort text.length
    · -- The offset is short, so the limit is not.
      obtain ⟨number, unlessShort⟩ := Classical.not_forall.mp short
      obtain ⟨named, long⟩ := Classical.not_imp.mp unlessShort
      rcases GrammarError.mem_integers_unexpected.mp named with rfl | rfl
      · have inside : token.offset ≤ text.length := by
          have stop := stands.stop
          rw [Token.stop] at stop
          omega
        exact absurd (shortOffset_of_le stands.start inside shortText) long
      · cases limited number rfl
        exact .inr (.limit scanned isToken long unmade)
    · exact .inr (.offset shortText (congrArg some unmade))

/-- A failure that arises in the tokens of a text is located in the text. -/
theorem ParseFailure.ArisesIn.located_or_undescribed {bounds : Bounds} {tokens : List Token}
    {failure : ParseFailure} (scanned : tokenize text = .ok tokens)
    (atEnd : bounds.endOffset = text.length) (arises : failure.ArisesIn bounds tokens) :
    failure.LocatedIn text ∨ failure.UndescribedIn bounds.depthLimit text := by
  cases arises with
  | @endOfInput expected =>
    rw [atEnd]
    have onlyEnd := GrammarError.integers_endOfInput expected text.length
    by_cases short : Integer.IsShort text.length
    · refine .inl (.endOfText (Report.madeAt_make (GrammarError.endOfInput_pointsAt _ _) ?_))
      rwa [onlyEnd, List.forall_mem_singleton]
    · refine .inr (.offset short (congrArg some (Report.make_eq_error ?_ short)))
      rw [onlyEnd, List.mem_singleton]
  | unexpected isToken limited => exact Token.located_or_undescribed scanned isToken limited
  | literal isToken unread =>
    obtain ⟨_, _, taken⟩ := takenFrom_of_tokenize scanned _ isToken
    rcases taken.ofToken_error unread with ⟨rfl, _⟩ | ⟨rfl, isNumber, noPoint, long⟩
    · exact Token.located_or_undescribed scanned isToken nofun
    · exact .inl (.longNumeral scanned isToken isNumber noPoint long)

variable {depthLimit : Int} {insights after : Insights} {failure : ParseFailure}

/-- A failure to parse a token list arises in its tokens. -/
theorem parseTokens_error {source : Option String} {tokens : List Token}
    (failed : parseTokens depthLimit source tokens insights = .error failure after) :
    failure.ArisesIn (Bounds.of tokens source depthLimit) tokens := by
  simp only [parseTokens, EStateM.run] at failed
  split at failed
  · cases failed
  · next inParser =>
    cases failed
    obtain ⟨_, arises⟩ := Parser.whole_runs.error inParser
    exact arises

/-- A failure to read a filter text is located in the text. -/
theorem parseFilter_error
    (failed : parseFilter depthLimit text insights = .error failure after) :
    failure.LocatedIn text ∨ failure.UndescribedIn depthLimit text := by
  unfold parseFilter at failed
  cases scanned : tokenize text with
  | error error =>
    rw [scanned] at failed
    cases failed
    exact LexicalError.located_or_undescribed depthLimit scanned
  | ok tokens =>
    simp only [scanned, bind, EStateM.bind] at failed
    split at failed
    · cases failed
    · next inTokens =>
      cases failed
      exact (parseTokens_error inTokens).located_or_undescribed scanned rfl

end UrlFilter
