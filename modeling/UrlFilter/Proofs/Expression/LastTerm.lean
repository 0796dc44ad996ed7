import UrlFilter.Proofs.Expression.Connected
import UrlFilter.Proofs.Expression.Kinds
import UrlFilter.Proofs.Token.Spaced

/-!
# The last term in front of a blank

A blank behind a text may make one phrase of what the last term ends in. Where that is the operand
of a comparison or a between clause, the term has the same tree with the phrase. Anywhere else no
expression has the phrase: in front of a connector a phrase has a field and a comparator before it.
-/

namespace UrlFilter

open Lexeme

/-- An item of a list that is put together stands in one of the parts. -/
theorem cut_at {α : Type} {left right front back : List α} {item : α}
    (same : left ++ right = front ++ item :: back) :
    (∃ later, left = front ++ item :: later ∧ back = later ++ right) ∨
      ∃ earlier, front = left ++ earlier ∧ right = earlier ++ item :: back := by
  rcases List.append_eq_append_iff.mp same with
    ⟨earlier, isFront, isRight⟩ | ⟨later, isLeft, isBack⟩
  · exact .inr ⟨earlier, isFront, isRight⟩
  · cases later with
    | nil => exact .inr ⟨[], by simpa using isLeft.symm, by simpa using isBack.symm⟩
    | cons first others =>
      obtain ⟨rfl, rfl⟩ := List.cons.inj isBack
      exact .inl ⟨others, isLeft, rfl⟩

/-- The kind is that of a comparator. -/
def Kind.compares (kind : Kind) : Bool :=
  (Comparator.ofKind? kind).isSome

/-- The tokens end in a field and a comparator. -/
def EndsCompared (tokens : List Token) : Prop :=
  ∃ before field comparator, tokens = before ++ [field, comparator] ∧ field.kind = .word ∧
    comparator.kind.compares = true

theorem EndsCompared.behind {tokens : List Token} (compared : EndsCompared tokens)
    (before : List Token) : EndsCompared (before ++ tokens) := by
  obtain ⟨others, field, comparator, rfl, isWord, compares⟩ := compared
  exact ⟨before ++ others, field, comparator, (List.append_assoc ..).symm, isWord, compares⟩

/-- A phrase that is last or stands in front of a connector has a field and a comparator before
it. -/
def PhrasesCompared (tokens : List Token) : Prop :=
  ∀ front phrase back, tokens = front ++ phrase :: back → phrase.kind = .phrase →
    (∀ next ∈ back.head?, next.kind ∈ [Kind.and, .or]) → EndsCompared front

namespace PhrasesCompared

variable {tokens more : List Token}

/-- Of tokens with a connector between them. -/
theorem connect (compared : PhrasesCompared tokens) {between : Token}
    (connects : between.kind ∈ [Kind.and, .or]) (further : PhrasesCompared more) :
    PhrasesCompared (tokens ++ between :: more) := by
  intro front phrase back split isPhrase next
  rcases cut_at split with ⟨later, isTokens, rfl⟩ | ⟨earlier, rfl, isMore⟩
  · refine compared front phrase later isTokens isPhrase ?_
    cases later with
    | nil => simp
    | cons first others => exact next
  · cases earlier with
    | nil =>
      obtain ⟨rfl, _⟩ := List.cons.inj isMore
      rw [isPhrase] at connects
      exact absurd connects (by decide)
    | cons first others =>
      obtain ⟨rfl, isRest⟩ := List.cons.inj isMore
      rw [List.append_cons]
      exact (further others phrase back isRest isPhrase next).behind _

/-- Of tokens in a group. -/
theorem group (compared : PhrasesCompared tokens) {opening closing : Token}
    (opens : opening.kind = .openGroup) (closes : closing.kind = .closeGroup) :
    PhrasesCompared (opening :: tokens ++ [closing]) := by
  intro front phrase back split isPhrase next
  rcases cut_at split with ⟨later, isInner, rfl⟩ | ⟨earlier, rfl, isClosing⟩
  · cases front with
    | nil =>
      obtain ⟨rfl, _⟩ := List.cons.inj isInner
      rw [opens] at isPhrase
      cases isPhrase
    | cons first others =>
      obtain ⟨rfl, isTokens⟩ := List.cons.inj isInner
      refine (compared others phrase later isTokens isPhrase ?_).behind [opening]
      cases later with
      | nil => simp
      | cons first others => exact next
  · have isLast : closing = phrase := by
      cases earlier <;> simp_all
    rw [isLast, isPhrase] at closes
    cases closes

end PhrasesCompared

section Clauses

variable {clause : Clause} {tokens : List Token}

/-- A phrase at the end of a clause is compared. -/
theorem Clause.Derives.phrasesCompared (derived : clause.Derives tokens) :
    PhrasesCompared tokens := by
  intro front phrase back split isPhrase next
  have isLast : back = [] := by
    cases back with
    | nil => rfl
    | cons first others =>
      have notConnector := derived.kind_notMem first (by simp [split])
      exact absurd (List.mem_append_left Kind.parentheses (next first rfl)) notConnector
  subst isLast
  cases derived with
  | @between _ _ _ upperLimit _ lower lowerLimit field limit upper bounds _ _ fieldDerived
      isUpperLimit _ =>
    have parts : [lower, lowerLimit, field, limit] ++ [upper] = front ++ [phrase] := split
    obtain ⟨rfl, _⟩ := List.append_inj' parts rfl
    refine ⟨[lower, lowerLimit], field, limit, rfl, fieldDerived.kind, ?_⟩
    rw [isUpperLimit]
    cases upperLimit <;> rfl
  | @presence _ _ _ keyword equal rest isKeyword spelling isEqual fields =>
    have isToken : phrase ∈ keyword :: equal :: rest := by simp [split]
    simp only [List.mem_cons] at isToken
    rcases isToken with rfl | rfl | isField
    · simp [isPhrase] at isKeyword
    · simp [isPhrase] at isEqual
    · have isWord := kinds_of_fields fields phrase isField
      simp [isPhrase] at isWord
  | @within _ _ _ _ _ closing _ field opens literals closes =>
    obtain ⟨_, isClosing⟩ := List.append_inj' split rfl
    cases isClosing
    rw [isPhrase] at closes
    cases closes
  | outside field isBang opens literals closes =>
    obtain ⟨_, isClosing⟩ := List.append_inj' split rfl
    cases isClosing
    rw [isPhrase] at closes
    cases closes
  | @comparison _ comparator _ field sign operand fieldDerived compares _ =>
    have parts : [field, sign] ++ [operand] = front ++ [phrase] := split
    obtain ⟨rfl, _⟩ := List.append_inj' parts rfl
    refine ⟨[], field, sign, rfl, fieldDerived.kind, ?_⟩
    rw [compares, Kind.compares, Comparator.ofKind?_kind]
    rfl

end Clauses

mutual

theorem Term.Derives.phrasesCompared {term : Term} {tokens : List Token} :
    Term.Derives term tokens → PhrasesCompared tokens
  | .clause derived => derived.phrasesCompared
  | .group opens derived closes => derived.phrasesCompared.group opens closes

theorem Conjunction.Derives.phrasesCompared {conjunction : Conjunction} {tokens : List Token} :
    Conjunction.Derives conjunction tokens → PhrasesCompared tokens
  | .single derived => derived.phrasesCompared
  | .and derived isAnd further =>
    derived.phrasesCompared.connect (by simp [isAnd]) further.phrasesCompared

/-- In an expression a phrase in front of a connector is compared. -/
theorem Disjunction.Derives.phrasesCompared {expression : Disjunction} {tokens : List Token} :
    Disjunction.Derives expression tokens → PhrasesCompared tokens
  | .single derived => derived.phrasesCompared
  | .or derived isOr further =>
    derived.phrasesCompared.connect (by simp [isOr]) further.phrasesCompared

end

/-- The token is a lexeme that is no regular expression and no string. -/
structure Token.Plain (token : Token) : Prop where
  found : token.kind.lexeme? token.text.toList = some token.text.toList
  notDelimited : token.kind ∉ [Kind.regex, .quoted]

namespace Token.Plain

variable {token : Token}

/-- Whether a token ends phrases is told by its kind. -/
theorem any_endsPhrase (plain : token.Plain) (notKeyword : token.kind ≠ .keyword) :
    token.text.toList.any endsPhrase = token.kind.endsPhrases := by
  refine Kind.any_endsPhrase plain.found ?_
  have notDelimited := plain.notDelimited
  simp only [List.mem_cons, List.not_mem_nil, or_false, not_or] at notDelimited ⊢
  exact ⟨notDelimited.1, notDelimited.2, notKeyword⟩

/-- A token of a kind that does not end phrases. -/
theorem unended (plain : token.Plain)
    (quiet : token.kind.endsPhrases = false ∧ token.kind ≠ .keyword) :
    ∀ c ∈ token.text.toList, endsPhrase c = false := by
  have none := plain.any_endsPhrase quiet.2
  rw [quiet.1, List.any_eq_false] at none
  simpa using none

/-- A token of a kind that ends phrases. -/
theorem not_mem (plain : token.Plain) (ends : token.kind.endsPhrases = true) {tokens : List Token}
    (unended : Unended tokens) : token ∉ tokens := by
  intro isToken
  have notKeyword : token.kind ≠ .keyword := by
    intro isKeyword
    rw [isKeyword] at ends
    exact absurd ends (by decide)
  have some := plain.any_endsPhrase notKeyword
  rw [ends, List.any_eq_true] at some
  obtain ⟨c, isChar, endsHere⟩ := some
  rw [unended token isToken c isChar] at endsHere
  cases endsHere

/-- Tokens that nothing ends stand behind a token that ends phrases. -/
theorem behind (plain : token.Plain) (ends : token.kind.endsPhrases = true)
    {before behind front tail : List Token} (split : before ++ token :: behind = front ++ tail)
    (unended : Unended tail) :
    ∃ between, front = before ++ token :: between ∧ behind = between ++ tail := by
  rcases cut_at split.symm with ⟨between, isFront, isBehind⟩ | ⟨earlier, _, isTail⟩
  · exact ⟨between, isFront, isBehind⟩
  · exact absurd (by simp [isTail]) (plain.not_mem ends unended)

end Token.Plain

/-- The literal is a word or a phrase. -/
def Literal.isBare : Literal → Bool
  | .word _ | .phrase _ => true
  | _ => false

/-- The term ends in bare text that is no operand: the fields of a presence clause, or a list with
the field right in front of it or a word in it. -/
def Term.endsBare : Term → Bool
  | .clause (.presence _ _ _) => true
  | .clause (.membership _ inside first others) => inside || (first :: others).any Literal.isBare
  | .clause (.between _ _ _ _ _) | .clause (.comparison _ _ _) | .group _ => false

/-- Words and phrases are bare literals. -/
theorem Literal.Derives.isBare_iff {literal : Literal} {token : Token}
    (derived : literal.Derives [token]) :
    literal.isBare = true ↔ token.kind ∈ [Kind.word, .phrase] := by
  obtain ⟨_, reads⟩ := derived
  have number : ∀ text, readNumber text = .ok literal → literal.isBare = false := by
    intro text read
    unfold readNumber at read
    split at read <;> split at read <;> cases read <;> rfl
  have regex : ∀ text, readRegex text = .ok literal → literal.isBare = false := by
    intro text read
    unfold readRegex at read
    split at read <;> cases read
    rfl
  unfold ofToken at reads
  cases isKind : token.kind <;> simp only [isKind] at reads
  case number => simp [number _ reads]
  case regex => simp [regex _ reads]
  all_goals cases reads <;> simp [isBare]

/-- A list has a bare literal exactly if a word or a phrase is among its tokens. -/
theorem any_isBare_iff {first : Literal} {others : List Literal} {tokens : List Token}
    (derived : SeparatedDerives .comma Literal.Derives first others tokens) :
    (first :: others).any Literal.isBare = true ↔
      ∃ token ∈ tokens, token.kind ∈ [Kind.word, .phrase] := by
  have single : ∀ {literal : Literal} {tokens : List Token}, literal.Derives tokens →
      (literal.isBare = true ↔ ∃ token ∈ tokens, token.kind ∈ [Kind.word, .phrase]) := by
    intro literal tokens derived
    obtain ⟨token, rfl⟩ : ∃ token, tokens = [token] := by
      cases derived
      exact ⟨_, rfl⟩
    rw [derived.isBare_iff]
    simp
  induction derived with
  | last derived => simpa using single derived
  | @more item next others tokens rest between derived isComma _ inductionHypothesis =>
    have notBare : between.kind ∉ [Kind.word, .phrase] := by
      rw [isComma]
      decide
    have parts : (∃ token ∈ tokens ++ between :: rest, token.kind ∈ [Kind.word, .phrase]) ↔
        (∃ token ∈ tokens, token.kind ∈ [Kind.word, .phrase]) ∨
          ∃ token ∈ rest, token.kind ∈ [Kind.word, .phrase] := by
      simp only [List.mem_append, List.mem_cons, or_and_right, exists_or,
        exists_eq_left] at notBare ⊢
      simp only [notBare, false_or]
    rw [List.any_cons, Bool.or_eq_true]
    exact (or_congr (single derived) inductionHypothesis).trans parts.symm

/-- Trimming takes away blanks that are added at the end. -/
theorem Text.dropWhileEnd_append {inClass : Char → Bool} {text more : List Char}
    (all : ∀ c ∈ more, inClass c = true) :
    dropWhileEnd inClass (text ++ more) = dropWhileEnd inClass text := by
  have reversed : ∀ c ∈ more.reverse, inClass c = true := by simpa using all
  rw [dropWhileEnd, dropWhileEnd, List.reverse_append, List.dropWhile_append_of_pos reversed]

/-- A word has no blanks to be trimmed. -/
theorem Token.Plain.trimEnd_word {token : Token} (plain : token.Plain)
    (isWord : token.kind = .word) : Text.trimEnd token.text = token.text := by
  have found := plain.found
  rw [isWord] at found
  obtain ⟨nonempty, wordChars, _⟩ := run_eq_some_iff.mp found
  rcases List.eq_nil_or_concat token.text.toList with isEmpty | ⟨others, last, isText⟩
  · exact absurd isEmpty nonempty
  · have notBlank := (phraseChar_of_isWordChar (wordChars last (by simp [isText]))).2.2
    rw [Text.trimEnd, isText, List.concat_eq_append, Numeral.dropWhileEnd_concat notBlank,
      ← List.concat_eq_append, ← isText, String.ofList_toList]

/-- The phrase that a single token becomes has the value of the token. -/
theorem Token.Swallowed.value {bare phrase : Token} (swallowed : Token.Swallowed bare [] phrase)
    (plain : bare.Plain) (isBare : bare.kind = .word ∨ bare.kind = .phrase) {literal : Literal}
    (derived : literal.Derives [bare]) :
    Literal.Derives (.phrase (Text.trimEnd phrase.text)) [phrase] ∧
      (Literal.phrase (Text.trimEnd phrase.text)).value = literal.value := by
  obtain ⟨isPhrase, more, text, blank⟩ := swallowed
  have sameTrimmed : Text.trimEnd phrase.text = Text.trimEnd bare.text := by
    rw [Text.trimEnd, Text.trimEnd, text, Text.dropWhileEnd_append (blank rfl)]
  obtain ⟨_, reads⟩ := derived
  refine ⟨.token (by simp [isPhrase, Kind.literals]) (by simp [Literal.ofToken, isPhrase]), ?_⟩
  rw [sameTrimmed]
  rcases isBare with isWord | isPhrase
  · simp only [Literal.ofToken, isWord, Except.ok.injEq] at reads
    rw [plain.trimEnd_word isWord, ← reads]
    rfl
  · simp only [Literal.ofToken, isPhrase, Except.ok.injEq] at reads
    rw [← reads]

section Rewritten

variable {last front before tail : List Token} {bare phrase : Token}

/-- A sign that ends phrases with one token behind it: what is loose there is that token. -/
theorem loose_operand {sign operand : Token} (plain : sign.Plain)
    (ends : sign.kind.endsPhrases = true) {earlier : List Token}
    (split : earlier ++ [sign, operand] = before ++ bare :: tail)
    (unended : Unended (bare :: tail)) :
    before = earlier ++ [sign] ∧ bare = operand ∧ tail = [] := by
  obtain ⟨between, rfl, isOperand⟩ := plain.behind ends split unended
  cases between with
  | nil =>
    cases isOperand
    exact ⟨rfl, rfl, rfl⟩
  | cons first others => simp at isOperand

/-- A term that does not end in bare text other than an operand is written with the phrase as
well. -/
theorem Term.Derives.rewritten {term : Term} (derived : term.Derives last)
    (plain : ∀ token ∈ last, token.Plain) (notBare : term.endsBare = false)
    (split : front ++ last = before ++ bare :: tail)
    (isBare : bare.kind = .word ∨ bare.kind = .phrase) (unended : Unended (bare :: tail))
    (swallowed : Token.Swallowed bare tail phrase) :
    ∃ (written : List Token) (other : Term), before ++ [phrase] = front ++ written ∧
      other.Derives written ∧ other.Alike term := by
  cases derived with
  | @group _ opening closing tokens opens _ closes =>
    have closingPlain := plain closing (by simp)
    have ends : closing.kind.endsPhrases = true := by simp [closes, Kind.endsPhrases]
    have parts : (front ++ opening :: tokens) ++ [closing] = before ++ bare :: tail := by
      rw [← split, List.append_assoc]
    obtain ⟨between, _, isNil⟩ := closingPlain.behind ends parts unended
    simp at isNil
  | @clause clause _ derived =>
    cases derived with
    | @between _ upper _ upperLimit _ lowerToken lowerSign field sign operand bounds lower
        isLowerLimit fieldDerived isUpperLimit upperDerived =>
      have ends : sign.kind.endsPhrases = true := by
        rw [isUpperLimit]
        cases upperLimit <;> decide
      have parts : (front ++ [lowerToken, lowerSign, field]) ++ [sign, operand] =
          before ++ bare :: tail := by
        rw [← split, List.append_assoc]
        rfl
      obtain ⟨rfl, rfl, rfl⟩ := loose_operand (plain sign (by simp)) ends parts unended
      obtain ⟨written, sameValue⟩ := swallowed.value (plain bare (by simp)) isBare upperDerived
      refine ⟨[lowerToken, lowerSign, field, sign, phrase], _, by simp,
        .clause (.between bounds lower isLowerLimit fieldDerived isUpperLimit written), ?_, rfl,
        rfl⟩
      simp only [Term.toNode, Clause.fields, sameValue]
    | presence isKeyword spelling isEqual fields => cases notBare
    | within field opens literals closes => cases notBare
    | @outside _ _ _ fieldToken bang opening closing rest field isBang opens literals closes =>
      exfalso
      have ends : bang.kind.endsPhrases = true := by simp [isBang, Kind.endsPhrases]
      have parts : (front ++ [fieldToken]) ++ bang :: (opening :: rest ++ [closing]) =
          before ++ bare :: tail := by
        rw [← split, List.append_assoc]
        rfl
      obtain ⟨between, rfl, inList⟩ := (plain bang (by simp)).behind ends parts unended
      have isToken : bare ∈ opening :: rest ++ [closing] := by simp [inList]
      simp only [List.cons_append, List.mem_cons, List.mem_append, List.not_mem_nil,
        or_false] at isToken
      rcases isToken with rfl | inRest | rfl
      · simp [opens] at isBare
      · have isBareLiteral := (any_isBare_iff literals).mpr ⟨bare, inRest, by simpa using isBare⟩
        rw [Term.endsBare, isBareLiteral] at notBare
        cases notBare
      · simp [closes] at isBare
    | @comparison _ comparator _ field sign operand fieldDerived compares operandDerived =>
      have ends : sign.kind.endsPhrases = true := by
        rw [compares]
        cases comparator <;> decide
      have parts : (front ++ [field]) ++ [sign, operand] = before ++ bare :: tail := by
        rw [← split, List.append_assoc]
        rfl
      obtain ⟨rfl, rfl, rfl⟩ := loose_operand (plain sign (by simp)) ends parts unended
      obtain ⟨written, sameValue⟩ := swallowed.value (plain bare (by simp)) isBare operandDerived
      refine ⟨[field, sign, phrase], _, by simp,
        .clause (.comparison fieldDerived compares written), ?_, rfl, rfl⟩
      cases comparator <;> simp only [Term.toNode, Clause.fields, sameValue]

end Rewritten

section Bare

variable {last front : List Token}

/-- The kinds of tokens in a clause that nothing ends, apart from the keyword and the sign of a
presence clause and the exclamation mark in front of a list. -/
theorem unended_of_kinds {tokens : List Token} (plain : ∀ token ∈ tokens, token.Plain)
    (kinds : ∀ token ∈ tokens, token.kind ∈ [Kind.openList, .closeList, .comma] ++ Kind.literals) :
    Unended tokens := by
  intro token isToken
  have quiet : ∀ kind ∈ [Kind.openList, .closeList, .comma] ++ Kind.literals,
      kind.endsPhrases = false ∧ kind ≠ .keyword := by
    decide
  exact (plain token isToken).unended (quiet _ (kinds token isToken))

/-- The tokens of a list of literals are among them. -/
theorem inList {first : Literal} {others : List Literal} {tokens : List Token}
    (derived : SeparatedDerives .comma Literal.Derives first others tokens) :
    ∀ token ∈ tokens, token.kind ∈ [Kind.openList, .closeList, .comma] ++ Kind.literals := by
  have inner : ∀ kind ∈ .comma :: Kind.literals,
      kind ∈ [Kind.openList, .closeList, .comma] ++ Kind.literals := by
    decide
  exact fun token isToken => inner _ (kinds_of_literals derived token isToken)

/-- A list of fields starts with a word. -/
theorem head_of_fields {first : String} {others : List String} {tokens : List Token}
    (derived : SeparatedDerives .comma FieldDerives first others tokens) :
    ∃ token rest, tokens = token :: rest ∧ token.kind = .word := by
  cases derived with
  | last derived =>
    obtain ⟨isWord⟩ := derived
    exact ⟨_, _, rfl, isWord⟩
  | more derived _ _ =>
    obtain ⟨isWord⟩ := derived
    exact ⟨_, _, rfl, isWord⟩

/-- A term that ends in bare text leaves it loose. -/
theorem Term.Derives.exists_loose {term : Term} (derived : term.Derives last)
    (plain : ∀ token ∈ last, token.Plain) (endsBare : term.endsBare = true) (front : List Token) :
    ∃ before bare tail, Token.LooseEnd (front ++ last) before bare tail := by
  cases derived with
  | group opens derived closes => cases endsBare
  | @clause clause _ derived =>
    cases derived with
    | between bounds lower isLowerLimit field isUpperLimit upper => cases endsBare
    | comparison field compares operand => cases endsBare
    | @presence _ _ _ keyword equal rest isKeyword spelling isEqual fields =>
      obtain ⟨first, others, rfl, isWord⟩ := head_of_fields fields
      refine ⟨front ++ [keyword, equal], first, others, by simp, .inl isWord, ?_⟩
      refine unended_of_kinds (fun token isToken => plain token (.tail _ (.tail _ isToken))) ?_
      intro token isToken
      have isField := kinds_of_fields fields token isToken
      simp only [List.mem_cons, List.not_mem_nil, or_false] at isField
      rcases isField with isWord | isComma
      · simp [isWord, Kind.literals]
      · simp [isComma]
    | @within _ _ _ fieldToken opening closing rest field opens literals closes =>
      refine ⟨front, fieldToken, opening :: rest ++ [closing], rfl, .inl field.kind, ?_⟩
      refine unended_of_kinds plain ?_
      have word : fieldToken.kind ∈ [Kind.openList, .closeList, .comma] ++ Kind.literals := by
        simp [field.kind, Kind.literals]
      refine List.forall_mem_cons.mpr ⟨word, List.forall_mem_cons.mpr ⟨by simp [opens], ?_⟩⟩
      exact List.forall_mem_append.mpr ⟨inList literals, by simp [closes]⟩
    | @outside _ _ _ fieldToken bang opening closing rest field isBang opens literals closes =>
      obtain ⟨bare, isToken, isBare⟩ :=
        (any_isBare_iff literals).mp (by simpa [Term.endsBare] using endsBare)
      obtain ⟨earlier, later, rfl⟩ := List.append_of_mem isToken
      refine ⟨front ++ fieldToken :: bang :: opening :: earlier, bare, later ++ [closing], by simp,
        by simpa using isBare, ?_⟩
      refine unended_of_kinds (fun token isToken => plain token (by simp_all)) ?_
      have inLater := (List.forall_mem_append.mp (inList literals)).2
      rw [← List.cons_append, List.forall_mem_append]
      exact ⟨inLater, by simp [closes]⟩

/-- Tokens that end in others than a comparator end in no comparison. -/
theorem not_endsCompared {part : List Token} (nonempty : part ≠ [])
    (none : ∀ token ∈ part, token.kind.compares = false) (front : List Token) :
    ¬ EndsCompared (front ++ part) := by
  rintro ⟨before, field, comparator, split, _, compares⟩
  rcases List.eq_nil_or_concat part with isEmpty | ⟨earlier, token, rfl⟩
  · exact nonempty isEmpty
  · have parts : (front ++ earlier) ++ [token] = (before ++ [field]) ++ [comparator] := by
      simpa using split
    obtain ⟨_, isLast⟩ := List.append_inj' parts rfl
    obtain rfl : token = comparator := by simpa using isLast
    rw [none token (by simp)] at compares
    cases compares

/-- Inside a term that ends in bare text no comparison ends: the sign of a presence clause stands
behind a keyword, and a list has none. -/
theorem Term.Derives.not_endsCompared_part {term : Term} {tokens part rest : List Token}
    (derived : term.Derives tokens) (endsBare : term.endsBare = true)
    (split : tokens = part ++ rest) (nonempty : part ≠ []) (front : List Token) :
    ¬ EndsCompared (front ++ part) := by
  have literal : ∀ kind ∈ [Kind.openList, .closeList, .comma] ++ Kind.literals,
      kind.compares = false := by
    decide
  have list : ∀ {tokens : List Token}, (∀ token ∈ tokens, token.kind.compares = false) →
      tokens = part ++ rest → ¬ EndsCompared (front ++ part) := by
    rintro _ none rfl
    exact not_endsCompared nonempty
      (fun token isToken => none token (List.mem_append_left _ isToken)) front
  cases derived with
  | group opens derived closes => cases endsBare
  | @clause clause _ derived =>
    cases derived with
    | between bounds lower isLowerLimit field isUpperLimit upper => cases endsBare
    | comparison field compares operand => cases endsBare
    | @presence _ _ _ keyword equal fieldTokens isKeyword spelling isEqual fields =>
      match part, nonempty, split with
      | [first], nonempty, split =>
        cases split
        refine not_endsCompared nonempty ?_ front
        simp [isKeyword, Kind.compares, Comparator.ofKind?]
      | [first, second], _, split =>
        cases split
        rintro ⟨before, field, comparator, same, isWord, _⟩
        obtain ⟨_, last⟩ := List.append_inj' same rfl
        obtain ⟨rfl, rfl⟩ : keyword = field ∧ equal = comparator := by simpa using last
        rw [isKeyword] at isWord
        cases isWord
      | first :: second :: third :: more, _, split =>
        cases split
        have word : ∀ kind ∈ [Kind.word, .comma], kind.compares = false := by decide
        have parts : front ++ keyword :: equal :: third :: more =
            (front ++ [keyword, equal]) ++ third :: more := by
          simp
        rw [parts]
        refine not_endsCompared (List.cons_ne_nil _ _) ?_ _
        intro token isToken
        exact word _ (kinds_of_fields fields token (List.mem_append_left rest isToken))
    | within field opens literals closes =>
      refine list ?_ split
      simp only [List.cons_append, List.forall_mem_cons, List.forall_mem_append, field.kind, opens,
        closes]
      exact ⟨rfl, rfl, fun token isToken => literal _ (inList literals token isToken), rfl, by simp⟩
    | outside field isBang opens literals closes =>
      refine list ?_ split
      simp only [List.cons_append, List.forall_mem_cons, List.forall_mem_append, field.kind, isBang,
        opens, closes]
      exact ⟨rfl, rfl, rfl, fun token isToken => literal _ (inList literals token isToken), rfl,
        by simp⟩

/-- What is loose in a term that ends in bare text stands behind no comparator. -/
theorem Term.Derives.not_endsCompared {term : Term} (derived : term.Derives last)
    (endsBare : term.endsBare = true)
    (connected : ∀ token ∈ front.getLast?, token.kind ∈ [Kind.and, .or])
    (plain : ∀ token ∈ front, token.Plain) {before tail : List Token} {bare : Token}
    (loose : Token.LooseEnd (front ++ last) before bare tail) : ¬ EndsCompared before := by
  have ends : ∀ kind ∈ [Kind.and, .or], kind.endsPhrases = true ∧ kind.compares = false := by
    decide
  have notFront : ¬ EndsCompared front := by
    rintro ⟨before, field, comparator, rfl, _, compares⟩
    have connector := connected comparator (by simp)
    rw [(ends _ connector).2] at compares
    cases compares
  rcases List.append_eq_append_iff.mp loose.split with ⟨part, rfl, isLast⟩ | ⟨later, rfl, isTail⟩
  · by_cases isEmpty : part = []
    · subst isEmpty
      rwa [List.append_nil]
    · exact derived.not_endsCompared_part endsBare isLast isEmpty front
  · rcases List.eq_nil_or_concat later with rfl | ⟨earlier, connector, rfl⟩
    · rwa [List.append_nil] at notFront
    · have isConnector := connected connector (by simp)
      have isLoose : connector ∈ bare :: tail := by simp [isTail]
      exact absurd isLoose
        ((plain connector (by simp)).not_mem (ends _ isConnector).1 loose.unended)

end Bare

namespace Disjunction.Derives

variable {expression : Disjunction} {tokens later : List Token}

/-- An expression whose last term does not end in bare text other than an operand is written by
the tokens that a blank leaves, up to that operand. -/
theorem spaced (derived : expression.Derives tokens) (plain : ∀ token ∈ tokens, token.Plain)
    (notBare : expression.lastTerm.endsBare = false) (spaced : Token.Spaced tokens later) :
    ∃ alike : Disjunction, alike.Derives later ∧ alike.Alike expression := by
  rcases spaced with ⟨rfl, _⟩ | ⟨before, bare, tail, phrase, loose, swallowed, rfl⟩
  · exact ⟨expression, derived, .refl expression⟩
  · obtain ⟨front, last, ends⟩ := derived.endsIn
    have lastPlain : ∀ token ∈ last, token.Plain := fun token isToken =>
      plain token (by simp [ends.split, isToken])
    obtain ⟨written, other, same, otherDerived, alike⟩ := ends.derived.rewritten lastPlain notBare
      (ends.split.symm.trans loose.split) loose.isBare loose.unended swallowed
    rw [same]
    exact ends.rewritten other written otherDerived alike

/-- If the last term ends in other bare text, no expression goes on with a connector behind the
tokens that a blank leaves. -/
theorem not_spaced (derived : expression.Derives tokens) (plain : ∀ token ∈ tokens, token.Plain)
    (endsBare : expression.lastTerm.endsBare = true) (spaced : Token.Spaced tokens later)
    {connector : Token} (connects : connector.kind ∈ [Kind.and, .or]) (more : List Token)
    (other : Disjunction) : ¬ other.Derives (later ++ connector :: more) := by
  obtain ⟨front, last, ends⟩ := derived.endsIn
  have parts := ends.split
  subst parts
  rcases spaced with ⟨_, settled⟩ | ⟨before, bare, tail, phrase, loose, swallowed, rfl⟩
  · obtain ⟨before, bare, tail, loose⟩ := ends.derived.exists_loose
      (fun token isToken => plain token (List.mem_append_right front isToken)) endsBare front
    exact absurd loose (settled before bare tail)
  · intro otherDerived
    have compared := otherDerived.phrasesCompared before phrase (connector :: more)
      (List.append_assoc ..) swallowed.isPhrase (by simpa using connects)
    exact ends.derived.not_endsCompared endsBare ends.connected
      (fun token isToken => plain token (List.mem_append_left last isToken)) loose compared

end Disjunction.Derives

end UrlFilter
