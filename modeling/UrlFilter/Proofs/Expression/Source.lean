import UrlFilter.Proofs.Token.Scan
import UrlFilter.Proofs.Token.Written

/-!
# The source of an expression

The source of an expression that can be written is scanned as tokens that write the
expression. Every part of it is scanned as it was written, given what may follow it there.
-/

namespace UrlFilter

open UrlFilter.Text UrlFilter.Lexeme

namespace Lexeme

/-- A character that ends a phrase delimits whatever follows it. -/
theorem Delimited.of_ends {c : Char} (ends : endsPhrase c = true) (isDelimiter : c ∈ delimiters)
    (rest : List Char) : Delimited (c :: rest) where
  head := by
    intro first isFirst
    cases isFirst
    exact isDelimiter
  calm := by simp [ends]

/-- A delimiter that joins no words delimits calm text. -/
theorem Delimited.of_calm {c : Char} {rest : List Char} (isDelimiter : c ∈ delimiters)
    (quiet : joinsWords c = false)
    (calm : (rest.takeWhile fun c => !endsPhrase c).any joinsWords = false) :
    Delimited (c :: rest) where
  head := by
    intro first isFirst
    cases isFirst
    exact isDelimiter
  calm := by
    rw [List.takeWhile_cons]
    split
    · rw [List.any_cons, quiet, calm]
      rfl
    · rfl

/-- Text in which nothing joins words stays calm in front of calm text. -/
theorem calm_append {left rest : List Char} (quiet : ∀ c ∈ left, joinsWords c = false)
    (calm : (rest.takeWhile fun c => !endsPhrase c).any joinsWords = false) :
    ((left ++ rest).takeWhile fun c => !endsPhrase c).any joinsWords = false := by
  induction left with
  | nil => exact calm
  | cons c others inductionHypothesis =>
    have further := inductionHypothesis fun later isLater => quiet later (.tail _ isLater)
    rw [List.cons_append, List.takeWhile_cons]
    split
    · rw [List.any_cons, quiet c List.mem_cons_self, further]
      rfl
    · rfl

/-- Items in which nothing joins words are calm when they are joined by commas. -/
theorem quiet_joined {α : Type} {source : α → String} {items : List α}
    (quiet : ∀ item ∈ items, ∀ c ∈ (source item).toList, joinsWords c = false) :
    ∀ c ∈ (joined "," (items.map source)).toList, joinsWords c = false := by
  induction items with
  | nil => simp [joined]
  | cons first others inductionHypothesis =>
    have further := inductionHypothesis fun item isLater => quiet item (.tail _ isLater)
    have firstQuiet := quiet first List.mem_cons_self
    cases others with
    | nil => simpa [joined] using firstQuiet
    | cons second rest =>
      intro c isChar
      rw [List.map_cons, List.map_cons, joined, String.intercalate_cons_cons,
        String.toList_append, String.toList_append] at isChar
      rcases List.mem_append.mp isChar with isFront | isLater
      · rcases List.mem_append.mp isFront with isFirst | isComma
        · exact firstQuiet c isFirst
        · rw [List.mem_singleton.mp isComma]
          decide
      · exact further c isLater

/-- Nothing joins words in the source of a calm literal. -/
theorem quiet_of_isCalm {literal : Literal} (calm : literal.isCalm = true) :
    ∀ c ∈ literal.source.toList, joinsWords c = false := by
  simpa [Literal.isCalm] using calm

/-- A comparator delimits the field in front of it. -/
theorem delimited_comparator (comparator : Comparator) (rest : List Char) :
    Delimited (comparator.symbol.toList ++ rest) := by
  cases comparator with
  | matching => exact .of_calm (by decide) (by decide) rfl
  | equal | notEqual | greater | atLeast | less | atMost => exact .of_ends (by decide) (by decide) _

/-- A limit delimits the literal or the field in front of it. -/
theorem delimited_limit (limit : Limit) (rest : List Char) :
    Delimited (limit.symbol.toList ++ rest) := by
  cases limit with
  | strict => exact delimited_comparator .less rest
  | inclusive => exact delimited_comparator .atMost rest

/-- A bare word does not start with an equality sign. -/
theorem noEqual_of_isBareWord {word : List Char} (bare : isBareWord word = true)
    (rest : List Char) : ∀ c ∈ (word ++ rest).head?, c ≠ '=' := by
  obtain ⟨nonempty, wordChars, _⟩ := isBareWord_iff.mp bare
  obtain ⟨first, others, rfl⟩ := List.exists_cons_of_ne_nil nonempty
  intro c isFirst
  cases isFirst
  rintro rfl
  exact absurd (wordChars '=' List.mem_cons_self) (by decide)

/-- Where a literal is found, no equality sign stands. -/
theorem noEqual_of_isLiteral {kind : Kind} (isLiteral : kind ∈ Kind.literals)
    {text lexeme : List Char} (found : kind.lexeme? text = some lexeme) :
    ∀ c ∈ text.head?, c ≠ '=' := by
  intro c isFirst
  rintro rfl
  obtain ⟨others, rfl⟩ := List.head?_eq_some_iff.mp isFirst
  have starts := Kind.mayStart_of_lexeme? found
  have none : ∀ kind ∈ Kind.literals, kind.mayStart '=' = false := by decide
  rw [none kind isLiteral] at starts
  cases starts

/-- The source of a literal does not start with an equality sign. -/
theorem noEqual_of_isWritable {literal : Literal} (writable : literal.isWritable = true)
    {rest : List Char} (delimited : Delimited rest) :
    ∀ c ∈ (literal.source.toList ++ rest).head?, c ≠ '=' := by
  obtain ⟨kind, isLiteral, ⟨taken, _⟩, _⟩ := Literal.exists_takenAs writable delimited
  exact noEqual_of_isLiteral isLiteral (firstLexeme?_eq_some_iff.mp taken).1

end Lexeme

namespace Scan

/-- The scan with tokens in front. -/
def prepend (tokens : List Token) (scan : Scan) : Scan :=
  { scan with tokens := tokens ++ scan.tokens }

/-- In front of the rest, the characters are scanned as tokens that write something. -/
def Writes (Derives : List Token → Prop) (characters rest : List Char) : Prop :=
  ∀ offset, ∃ tokens, Derives tokens ∧
    readFrom 0 offset (characters ++ rest) =
      (readFrom 0 (offset + characters.length) rest).prepend tokens

/-- The tokens are one token that fits. -/
def One (Fits : Token → Prop) (tokens : List Token) : Prop :=
  ∃ token, tokens = [token] ∧ Fits token

/-- The tokens are one token that fits and others that write something. -/
def OneThen (Fits : Token → Prop) (Derives : List Token → Prop) (tokens : List Token) : Prop :=
  ∃ token others, tokens = token :: others ∧ Fits token ∧ Derives others

/-- The tokens are some that write something and one token behind them that fits. -/
def ThenOne (Derives : List Token → Prop) (Fits : Token → Prop) (tokens : List Token) : Prop :=
  ∃ others token, tokens = others ++ [token] ∧ Derives others ∧ Fits token

namespace Writes

variable {First Second Both : List Token → Prop} {Fits : Token → Prop}
  {left right rest : List Char}

/-- Two parts one after the other are scanned as both of their tokens. -/
theorem append (first : Writes First left (right ++ rest)) (second : Writes Second right rest)
    (both : ∀ tokens more, First tokens → Second more → Both (tokens ++ more)) :
    Writes Both (left ++ right) rest := by
  intro offset
  obtain ⟨tokens, firstDerived, firstScanned⟩ := first offset
  obtain ⟨more, secondDerived, secondScanned⟩ := second (offset + left.length)
  refine ⟨tokens ++ more, both tokens more firstDerived secondDerived, ?_⟩
  rw [List.append_assoc, firstScanned, secondScanned, List.length_append, Nat.add_assoc]
  simp [prepend]

/-- A token comes in front of the tokens of what follows it. -/
theorem cons (first : Writes (One Fits) left (right ++ rest)) (second : Writes Second right rest) :
    Writes (OneThen Fits Second) (left ++ right) rest := by
  refine first.append second ?_
  rintro _ more ⟨token, rfl, fits⟩ derived
  exact ⟨token, more, rfl, fits, derived⟩

/-- A token comes behind the tokens of what it follows. -/
theorem snoc (first : Writes First left (right ++ rest)) (second : Writes (One Fits) right rest) :
    Writes (ThenOne First Fits) (left ++ right) rest := by
  refine first.append second ?_
  rintro tokens _ derived ⟨token, rfl, fits⟩
  exact ⟨tokens, token, rfl, derived, fits⟩

/-- A lexeme that is taken is scanned as one token. -/
theorem lexeme {kind : Kind} (taken : firstLexeme? (left ++ rest) = some (kind, left))
    (notBlank : kind ≠ .blank)
    (fits : ∀ offset : Int, Fits ⟨kind, String.ofList left, offset⟩) :
    Writes (One Fits) left rest := by
  intro offset
  refine ⟨_, ⟨_, rfl, fits offset⟩, ?_⟩
  rw [readFrom_lexeme taken, push, if_neg notBlank]
  rfl

/-- What the tokens write may be described otherwise. -/
theorem imp (first : Writes First left rest) (implies : ∀ tokens, First tokens → Second tokens) :
    Writes Second left rest := by
  intro offset
  obtain ⟨tokens, derived, scanned⟩ := first offset
  exact ⟨tokens, implies tokens derived, scanned⟩

end Writes

/-- The token is of the kind. -/
def OfKind (kind : Kind) (token : Token) : Prop :=
  token.kind = kind

/-- A character that only one kind may start with is scanned as a token of that kind. -/
theorem writes_char {kind : Kind} {c : Char} {rest : List Char}
    (found : kind.lexeme? (c :: rest) = some [c])
    (only : ∀ other ∈ kind.before, other.mayStart c = false) (notBlank : kind ≠ .blank) :
    Writes (One (OfKind kind)) [c] rest :=
  .lexeme (firstLexeme?_char found only) notBlank fun _ => rfl

section Parts

variable {rest : List Char}

/-- A comparator is scanned as its token. -/
theorem writes_comparator (comparator : Comparator) (noEqual : ∀ c ∈ rest.head?, c ≠ '=') :
    Writes (One (OfKind comparator.kind)) comparator.symbol.toList rest := by
  have notBlank : comparator.kind ≠ .blank := by cases comparator <;> decide
  exact .lexeme (comparator.firstLexeme?_symbol noEqual) notBlank fun _ => rfl

/-- A limit is scanned as its token. -/
theorem writes_limit (limit : Limit) (noEqual : ∀ c ∈ rest.head?, c ≠ '=') :
    Writes (One (OfKind limit.kind)) limit.symbol.toList rest := by
  have notBlank : limit.kind ≠ .blank := by cases limit <;> decide
  exact .lexeme (limit.firstLexeme?_symbol noEqual) notBlank fun _ => rfl

/-- A field is scanned as its token. -/
theorem writes_field {field : String} (bare : isBareWord field.toList = true)
    (delimited : Delimited rest) :
    Writes (One fun token => FieldDerives field [token]) field.toList rest := by
  refine .lexeme (firstLexeme?_bareWord bare delimited) (by decide) fun offset => ?_
  rw [String.ofList_toList]
  exact @FieldDerives.token ⟨.word, field, offset⟩ rfl

/-- A literal that is taken as one token is scanned as that token. -/
theorem writes_takenAs {literal : Literal} {kind : Kind} (isLiteral : kind ∈ Kind.literals)
    (takenAs : literal.TakenAs kind rest) :
    Writes (One fun token => Literal.Derives literal [token] ∧ token.kind = kind)
      literal.source.toList rest := by
  obtain ⟨taken, reads⟩ := takenAs
  have notBlank : kind ≠ .blank := by
    rintro rfl
    exact absurd isLiteral (by decide)
  refine .lexeme taken notBlank fun offset => ⟨.token isLiteral ?_, rfl⟩
  rw [String.ofList_toList]
  exact reads offset

/-- A literal is scanned as its token. -/
theorem writes_literal {literal : Literal} (writable : literal.isWritable = true)
    (delimited : Delimited rest) :
    Writes (One fun token => Literal.Derives literal [token] ∧
        (literal.isLowerBound = true → token.kind ∈ [Kind.number, .quoted, .phrase]))
      literal.source.toList rest := by
  obtain ⟨kind, isLiteral, takenAs, isBound⟩ := Literal.exists_takenAs writable delimited
  refine (writes_takenAs isLiteral takenAs).imp ?_
  rintro _ ⟨token, rfl, derived, rfl⟩
  exact ⟨token, rfl, derived, isBound⟩

/-- A list is scanned item by item, with commas between them, if every item may stand in front
of what follows it in the list. -/
theorem writes_joined {α : Type} {Item : α → List Token → Prop} {source : α → String}
    (Follows : List Char → Prop) {first : α} {others : List α}
    (writes : ∀ item ∈ first :: others, ∀ {rest}, Follows rest →
      Writes (Item item) (source item).toList rest)
    (between : ∀ later : List α, (∀ item ∈ later, item ∈ others) →
      Follows (',' :: ((joined "," (later.map source)).toList ++ rest)))
    (ends : Follows rest) :
    Writes (SeparatedDerives .comma Item first others)
      (joined "," ((first :: others).map source)).toList rest := by
  induction others generalizing first with
  | nil =>
    rw [List.map_cons, List.map_nil, joined, String.intercalate_singleton]
    exact (writes first List.mem_cons_self ends).imp fun _ derived => .last derived
  | cons second others inductionHypothesis =>
    have further := inductionHypothesis
      (fun item isLater => writes item (.tail _ isLater))
      (fun later isLater => between later fun item isItem => .tail _ (isLater item isItem))
    have comma : Writes (One (OfKind .comma)) [',']
        ((joined "," ((second :: others).map source)).toList ++ rest) :=
      writes_char (spelled_append "," _) (by decide) (by decide)
    have firstWrites := writes first List.mem_cons_self (between (second :: others) fun _ => id)
    have characters : (joined "," ((first :: second :: others).map source)).toList =
        (source first).toList ++
          ([','] ++ (joined "," ((second :: others).map source)).toList) := by
      simp [joined]
    rw [characters]
    refine firstWrites.append (comma.cons further) ?_
    rintro tokens _ derived ⟨between, more, rfl, isComma, listDerived⟩
    exact .more derived isComma listDerived

/-- A list of items in which nothing joins words is scanned item by item. -/
theorem writes_separated {α : Type} {Item : α → List Token → Prop} {source : α → String}
    {first : α} {others : List α}
    (writes : ∀ item ∈ first :: others, ∀ {rest}, Delimited rest →
      Writes (Item item) (source item).toList rest)
    (quiet : ∀ item ∈ first :: others, ∀ c ∈ (source item).toList, joinsWords c = false)
    (delimited : Delimited rest) :
    Writes (SeparatedDerives .comma Item first others)
      (joined "," ((first :: others).map source)).toList rest := by
  refine writes_joined Delimited writes ?_ delimited
  intro later isLater
  have laterQuiet := quiet_joined fun item isItem => quiet item (.tail _ (isLater item isItem))
  exact .of_calm (by decide) (by decide) (calm_append laterQuiet delimited.calm)

end Parts

end Scan

namespace Clause

open Scan

variable {rest : List Char}

/-- The list of a membership clause is scanned with its braces. -/
theorem writes_list {first : Literal} {others : List Literal}
    (items : Writes (SeparatedDerives .comma Literal.Derives first others)
      (joined "," ((first :: others).map Literal.source)).toList (['\x7d'] ++ rest)) :
    Writes (OneThen (OfKind .openList)
        (ThenOne (SeparatedDerives .comma Literal.Derives first others) (OfKind .closeList)))
      (['\x7b'] ++ ((joined "," ((first :: others).map Literal.source)).toList ++ ['\x7d']))
      rest := by
  have opening : Writes (One (OfKind .openList)) ['\x7b']
      ((joined "," ((first :: others).map Literal.source)).toList ++ ['\x7d'] ++ rest) :=
    writes_char (spelled_append "\x7b" _) (by decide) (by decide)
  have closing : Writes (One (OfKind .closeList)) ['\x7d'] rest :=
    writes_char (spelled_append "\x7d" _) (by decide) (by decide)
  exact opening.cons (items.snoc closing)

/-- The literals of a list in which nothing joins words are scanned one by one. -/
theorem writes_calm {first : Literal} {others : List Literal}
    (writable : ∀ literal ∈ first :: others, literal.isWritable = true)
    (calm : ∀ literal ∈ first :: others, literal.isCalm = true) (delimited : Delimited rest) :
    Writes (SeparatedDerives .comma Literal.Derives first others)
      (joined "," ((first :: others).map Literal.source)).toList (['\x7d'] ++ rest) := by
  have literalWrites : ∀ literal ∈ first :: others, ∀ {rest}, Delimited rest →
      Writes (Literal.Derives literal) literal.source.toList rest := by
    intro literal isItem rest delimited
    refine (writes_literal (writable literal isItem) delimited).imp ?_
    rintro _ ⟨token, rfl, derived, _⟩
    exact derived
  have quiet : ∀ literal ∈ first :: others, ∀ c ∈ literal.source.toList, joinsWords c = false :=
    fun literal isItem => quiet_of_isCalm (calm literal isItem)
  exact writes_separated literalWrites quiet (.of_calm (by decide) (by decide) delimited.calm)

/-- The list of a membership clause delimits the field in front of it. -/
theorem delimited_list {items : List Literal} (calm : ∀ literal ∈ items, literal.isCalm = true)
    (delimited : Delimited rest) :
    Delimited
      (['\x7b'] ++ ((joined "," (items.map Literal.source)).toList ++ ['\x7d']) ++ rest) := by
  have quiet : ∀ c ∈ (joined "," (items.map Literal.source)).toList ++ ['\x7d'],
      joinsWords c = false := by
    intro c isChar
    rcases List.mem_append.mp isChar with isInside | isClosing
    · have quietItems := quiet_joined fun literal isItem => quiet_of_isCalm (calm literal isItem)
      exact quietItems c isInside
    · rw [List.mem_singleton.mp isClosing]
      decide
  exact .of_calm (by decide) (by decide) (calm_append quiet delimited.calm)

/-- A between clause is scanned as its five tokens. -/
theorem writes_between {lower upper : Literal} {lowerLimit upperLimit : Limit} {field : String}
    (writable : (between lower lowerLimit field upperLimit upper).isWritable = true)
    (delimited : Delimited rest) :
    Writes (Clause.Derives (.between lower lowerLimit field upperLimit upper))
      (between lower lowerLimit field upperLimit upper).source.toList rest := by
  simp only [isWritable, Bool.and_eq_true] at writable
  obtain ⟨⟨⟨isBound, lowerWritable⟩, bare⟩, upperWritable⟩ := writable
  have characters : (between lower lowerLimit field upperLimit upper).source.toList =
      lower.source.toList ++ (lowerLimit.symbol.toList ++ (field.toList ++
        (upperLimit.symbol.toList ++ upper.source.toList))) := by
    simp [source]
  rw [characters]
  have all := (writes_literal lowerWritable ?lower).cons ((writes_limit lowerLimit ?lowerLimit).cons
    ((writes_field bare ?field).cons ((writes_limit upperLimit ?upperLimit).cons
      (writes_literal upperWritable delimited))))
  case lower | field =>
    rw [List.append_assoc]
    exact delimited_limit _ _
  case lowerLimit =>
    rw [List.append_assoc]
    exact noEqual_of_isBareWord bare _
  case upperLimit => exact noEqual_of_isWritable upperWritable delimited
  refine all.imp ?_
  rintro _ ⟨lowerToken, _, rfl, ⟨lowerDerived, bounds⟩, lowerLimitToken, _, rfl, isLowerLimit,
    fieldToken, _, rfl, fieldDerived, upperLimitToken, _, rfl, isUpperLimit, upperToken, rfl,
    upperDerived, _⟩
  exact .between (bounds isBound) lowerDerived isLowerLimit fieldDerived isUpperLimit upperDerived

/-- A presence clause is scanned as its keyword, an equality sign and its fields. -/
theorem writes_presence {present : Bool} {field : String} {others : List String}
    (writable : (presence present field others).isWritable = true) (delimited : Delimited rest) :
    Writes (Clause.Derives (.presence present field others))
      (presence present field others).source.toList rest := by
  have bare : ∀ name ∈ field :: others, isBareWord name.toList = true :=
    List.all_eq_true.mp writable
  have fieldWrites : ∀ name ∈ field :: others, ∀ {rest}, Delimited rest →
      Writes (FieldDerives name) name.toList rest := by
    intro name isName rest delimited
    refine (writes_field (bare name isName) delimited).imp ?_
    rintro _ ⟨token, rfl, derived⟩
    exact derived
  have quiet : ∀ name ∈ field :: others, ∀ c ∈ name.toList, joinsWords c = false := by
    intro name isName c isChar
    obtain ⟨_, wordChars, _⟩ := isBareWord_iff.mp (bare name isName)
    exact (phraseChar_of_isWordChar (wordChars c isChar)).2.1
  have fieldsWrite := writes_separated fieldWrites quiet delimited
  rw [List.map_id'] at fieldsWrite
  have characters : (presence present field others).source.toList =
      (presenceKeyword present).toList ++
        (['='] ++ (joined "," (field :: others)).toList) := by
    simp [source]
  have keyword : Writes (One fun token => token.kind = .keyword ∧
      token.text = presenceKeyword present) (presenceKeyword present).toList
      (['='] ++ (joined "," (field :: others)).toList ++ rest) :=
    .lexeme (firstLexeme?_presenceKeyword present _) (by decide)
      fun _ => ⟨rfl, String.ofList_toList⟩
  have equal : Writes (One (OfKind .equal)) ['='] ((joined "," (field :: others)).toList ++ rest) :=
    writes_char (spelled_append "=" _) (by decide) (by decide)
  rw [characters]
  refine (keyword.cons (equal.cons fieldsWrite)).imp ?_
  rintro _ ⟨keywordToken, _, rfl, ⟨isKeyword, spelling⟩, equalToken, _, rfl, isEqual, derived⟩
  exact .presence isKeyword spelling isEqual derived

section Membership

variable {field : String} {first : Literal} {others : List Literal}
  (bare : isBareWord field.toList = true)
  (items : Writes (SeparatedDerives .comma Literal.Derives first others)
    (joined "," ((first :: others).map Literal.source)).toList (['\x7d'] ++ rest))

include bare items

/-- A membership clause is scanned as its field and its list, if the list delimits the field. -/
theorem writes_within
    (listDelimits : Delimited (['\x7b'] ++
      ((joined "," ((first :: others).map Literal.source)).toList ++ ['\x7d']) ++ rest)) :
    Writes (Clause.Derives (.membership field true first others))
      (membership field true first others).source.toList rest := by
  have characters : (membership field true first others).source.toList =
      field.toList ++ (['\x7b'] ++
        ((joined "," ((first :: others).map Literal.source)).toList ++ ['\x7d'])) := by
    simp [source]
  rw [characters]
  refine ((writes_field bare listDelimits).cons (writes_list items)).imp ?_
  rintro _ ⟨fieldToken, _, rfl, fieldDerived, opening, _, rfl, opens, listTokens, closing, rfl,
    derived, closes⟩
  exact .within fieldDerived opens derived closes

/-- With an exclamation mark in front, the list need not delimit the field. -/
theorem writes_outside : Writes (Clause.Derives (.membership field false first others))
    (membership field false first others).source.toList rest := by
  have characters : (membership field false first others).source.toList =
      field.toList ++ (['!'] ++ (['\x7b'] ++
        ((joined "," ((first :: others).map Literal.source)).toList ++ ['\x7d']))) := by
    simp [source]
  have bang : Writes (One (OfKind .bang)) ['!'] (['\x7b'] ++
      ((joined "," ((first :: others).map Literal.source)).toList ++ ['\x7d']) ++ rest) :=
    .lexeme (firstLexeme?_bang _) (by decide) fun _ => rfl
  have bangDelimits : ∀ rest, Delimited ('!' :: rest) := .of_ends (by decide) (by decide)
  rw [characters]
  refine ((writes_field bare (bangDelimits _)).cons (bang.cons (writes_list items))).imp ?_
  rintro _ ⟨fieldToken, _, rfl, fieldDerived, bangToken, _, rfl, isBang, opening, _, rfl, opens,
    listTokens, closing, rfl, derived, closes⟩
  exact .outside fieldDerived isBang opens derived closes

end Membership

/-- A membership clause is scanned as its field, perhaps an exclamation mark, and its list. -/
theorem writes_membership {field : String} {inside : Bool} {first : Literal}
    {others : List Literal} (writable : (membership field inside first others).isWritable = true)
    (delimited : Delimited rest) :
    Writes (Clause.Derives (.membership field inside first others))
      (membership field inside first others).source.toList rest := by
  simp only [isWritable, Bool.and_eq_true, List.all_eq_true] at writable
  obtain ⟨bare, each⟩ := writable
  have calm : ∀ literal ∈ first :: others, literal.isCalm = true :=
    fun literal isItem => (each literal isItem).2
  have items := writes_calm (fun literal isItem => (each literal isItem).1) calm delimited
  cases inside with
  | true => exact writes_within bare items (delimited_list calm delimited)
  | false => exact writes_outside bare items

/-- A comparison is scanned as its three tokens. -/
theorem writes_comparison {field : String} {comparator : Comparator} {operand : Literal}
    (writable : (comparison field comparator operand).isWritable = true)
    (delimited : Delimited rest) :
    Writes (Clause.Derives (.comparison field comparator operand))
      (comparison field comparator operand).source.toList rest := by
  simp only [isWritable, Bool.and_eq_true] at writable
  obtain ⟨bare, operandWritable⟩ := writable
  have characters : (comparison field comparator operand).source.toList =
      field.toList ++ (comparator.symbol.toList ++ operand.source.toList) := by
    simp [source]
  have fieldDelimited :
      Delimited (comparator.symbol.toList ++ operand.source.toList ++ rest) := by
    rw [List.append_assoc]
    exact delimited_comparator comparator _
  have comparatorWrites := writes_comparator comparator
    (noEqual_of_isWritable operandWritable delimited)
  have operandWrites := writes_literal operandWritable delimited
  rw [characters]
  refine ((writes_field bare fieldDelimited).cons (comparatorWrites.cons operandWrites)).imp ?_
  rintro _ ⟨fieldToken, _, rfl, fieldDerived, comparatorToken, _, rfl, compares, operandToken, rfl,
    operandDerived, _⟩
  exact .comparison fieldDerived compares operandDerived

/-- A clause that can be written is scanned as tokens that write it. -/
theorem writes {clause : Clause} (writable : clause.isWritable = true)
    (delimited : Delimited rest) : Writes clause.Derives clause.source.toList rest := by
  cases clause with
  | between => exact writes_between writable delimited
  | presence => exact writes_presence writable delimited
  | membership => exact writes_membership writable delimited
  | comparison => exact writes_comparison writable delimited

end Clause

open Scan

/-- A connector or a closing parenthesis delimits what stands in front of it. -/
theorem delimited_of_closing {c : Char} (closes : c ∈ ['&', '^', ')']) (rest : List Char) :
    Delimited (c :: rest) := by
  simp only [List.mem_cons, List.not_mem_nil, or_false] at closes
  rcases closes with rfl | rfl | rfl <;> exact .of_ends (by decide) (by decide) rest

mutual

/-- A term that can be written is scanned as tokens that write it. -/
theorem Term.writes {rest : List Char} (delimited : Delimited rest) :
    (term : Term) → term.isWritable = true → Writes term.Derives term.source.toList rest
  | .clause only, writable => by
    refine (Clause.writes writable delimited).imp ?_
    intro tokens derived
    exact .clause derived
  | .group inside, writable => by
    have characters : (Term.group inside).source.toList =
        ['('] ++ (inside.source.toList ++ [')']) := by
      simp [Term.source]
    have opening : Writes (One (OfKind .openGroup)) ['('] (inside.source.toList ++ [')'] ++ rest) :=
      writes_char (spelled_append "(" _) (by decide) (by decide)
    have closing : Writes (One (OfKind .closeGroup)) [')'] rest :=
      writes_char (spelled_append ")" _) (by decide) (by decide)
    have insideWrites : Writes inside.Derives inside.source.toList ([')'] ++ rest) :=
      inside.writes (delimited_of_closing (by decide) rest) writable
    rw [characters]
    refine (opening.cons (insideWrites.snoc closing)).imp ?_
    rintro _ ⟨openingToken, _, rfl, opens, tokens, closingToken, rfl, derived, closes⟩
    exact .group opens derived closes

/-- A conjunction that can be written is scanned as tokens that write it. -/
theorem Conjunction.writes {rest : List Char} (delimited : Delimited rest) :
    (conjunction : Conjunction) → conjunction.isWritable = true →
      Writes conjunction.Derives conjunction.source.toList rest
  | .single term, writable => by
    refine (term.writes delimited writable).imp ?_
    intro tokens derived
    exact .single derived
  | .and term others, writable => by
    simp only [Conjunction.isWritable, Bool.and_eq_true] at writable
    have characters : (Conjunction.and term others).source.toList =
        term.source.toList ++ (['&'] ++ others.source.toList) := by
      simp [Conjunction.source]
    have connector : Writes (One (OfKind .and)) ['&'] (others.source.toList ++ rest) :=
      writes_char (spelled_append "&" _) (by decide) (by decide)
    have termWrites : Writes term.Derives term.source.toList
        (['&'] ++ others.source.toList ++ rest) :=
      term.writes (delimited_of_closing (by decide) _) writable.1
    rw [characters]
    refine termWrites.append (connector.cons (others.writes delimited writable.2)) ?_
    rintro tokens _ derived ⟨between, more, rfl, isAnd, further⟩
    exact .and derived isAnd further

/-- A disjunction that can be written is scanned as tokens that write it. -/
theorem Disjunction.writes {rest : List Char} (delimited : Delimited rest) :
    (disjunction : Disjunction) → disjunction.isWritable = true →
      Writes disjunction.Derives disjunction.source.toList rest
  | .single conjunction, writable => by
    refine (conjunction.writes delimited writable).imp ?_
    intro tokens derived
    exact .single derived
  | .or conjunction others, writable => by
    simp only [Disjunction.isWritable, Bool.and_eq_true] at writable
    have characters : (Disjunction.or conjunction others).source.toList =
        conjunction.source.toList ++ (['^'] ++ others.source.toList) := by
      simp [Disjunction.source]
    have connector : Writes (One (OfKind .or)) ['^'] (others.source.toList ++ rest) :=
      writes_char (spelled_append "^" _) (by decide) (by decide)
    have conjunctionWrites : Writes conjunction.Derives conjunction.source.toList
        (['^'] ++ others.source.toList ++ rest) :=
      conjunction.writes (delimited_of_closing (by decide) _) writable.1
    rw [characters]
    refine conjunctionWrites.append (connector.cons (others.writes delimited writable.2)) ?_
    rintro tokens _ derived ⟨between, more, rfl, isOr, further⟩
    exact .or derived isOr further

end

/-- A text that is scanned to its end as tokens that write something has these tokens. -/
theorem Scan.Writes.tokenize {Derives : List Token → Prop} {text : String}
    (writes : Writes Derives text.toList []) :
    ∃ tokens, tokenize text = .ok tokens ∧ Derives tokens := by
  obtain ⟨tokens, derived, scanned⟩ := writes 0
  rw [List.append_nil] at scanned
  refine ⟨tokens, ?_, derived⟩
  simp [UrlFilter.tokenize, Scan.read, scanned, Scan.readFrom, prepend]

/-- The source of an expression that can be written has tokens, and they write the
expression. -/
theorem Disjunction.tokenize_source {expression : Disjunction}
    (writable : expression.isWritable = true) :
    ∃ tokens, tokenize expression.source = .ok tokens ∧ expression.Derives tokens :=
  (expression.writes Delimited.nil writable).tokenize

end UrlFilter
