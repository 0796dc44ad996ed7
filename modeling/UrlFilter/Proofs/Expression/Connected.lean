import UrlFilter.Proofs.Grammar
import UrlFilter.Proofs.Token.Connected

/-!
# Expressions joined by a connector

Two texts with a connector between them write the expression that has the conjunctions of both:
`^` puts them one after the other, and `&` makes one conjunction of the last one of the first text
and the first one of the second. What the first text writes last may be written otherwise, as long
as it has the same tree.
-/

namespace UrlFilter

/-- The kind of token that writes a connector. -/
def Connector.kind : Connector → Kind
  | .and => .and
  | .or => .or

/-- The terms of one conjunction and then those of another. -/
def Conjunction.append : Conjunction → Conjunction → Conjunction
  | .single term, other => .and term other
  | .and term rest, other => .and term (rest.append other)

/-- The expression with further terms in front of its first conjunction. -/
def Disjunction.prepend (terms : Conjunction) : Disjunction → Disjunction
  | .single first => .single (terms.append first)
  | .or first rest => .or (terms.append first) rest

/-- What two expressions with a connector between them write. -/
def Disjunction.connect (connector : Connector) : Disjunction → Disjunction → Disjunction
  | .single last, other => match connector with
    | .and => other.prepend last
    | .or => .or last other
  | .or first rest, other => .or first (rest.connect connector other)

/-- The tokens of two conjunctions with `&` between them write the terms of both. -/
theorem Conjunction.Derives.append {conjunction other : Conjunction} {tokens more : List Token}
    {between : Token} : conjunction.Derives tokens → between.kind = .and → other.Derives more →
      (conjunction.append other).Derives (tokens ++ between :: more)
  | .single derived, isAnd, further => .and derived isAnd further
  | .and derived isInner rest, isAnd, further => by
    rw [List.append_assoc, List.cons_append]
    exact .and derived isInner (rest.append isAnd further)

/-- Tokens of a conjunction with `&` behind them add its terms to the first conjunction of what
follows. -/
theorem Disjunction.Derives.prepend {terms : Conjunction} {other : Disjunction}
    {tokens more : List Token} {between : Token} (derived : terms.Derives tokens)
    (isAnd : between.kind = .and) (further : other.Derives more) :
    (other.prepend terms).Derives (tokens ++ between :: more) := by
  cases further with
  | single first => exact .single (derived.append isAnd first)
  | or first isOr rest =>
    rw [← List.cons_append, ← List.append_assoc]
    exact .or (derived.append isAnd first) isOr rest

/-- The tokens of two expressions with a connector between them write what is connected. -/
theorem Disjunction.Derives.connect {connector : Connector} {expression other : Disjunction}
    {tokens more : List Token} {between : Token} :
    expression.Derives tokens → between.kind = connector.kind → other.Derives more →
      (expression.connect connector other).Derives (tokens ++ between :: more)
  | .single derived, connects, further => by
    cases connector with
    | and => exact Disjunction.Derives.prepend derived connects further
    | or => exact .or derived connects further
  | .or derived isOr rest, connects, further => by
    rw [List.append_assoc, List.cons_append]
    exact .or derived isOr (rest.connect connects further)

section Shift

variable (distance : Nat) {tokens : List Token}

/-- A literal is the same wherever its token stands. -/
theorem Literal.Derives.shift {literal : Literal} (derived : literal.Derives tokens) :
    literal.Derives (tokens.map (Token.shift distance)) := by
  cases derived with
  | @token token isLiteral reads =>
    have same : ofToken (token.shift distance) = .ok literal := by
      have isKind : token.kind ∈ Kind.literals := isLiteral
      unfold ofToken at reads ⊢
      cases sameKind : token.kind <;> simp_all [Token.shift, Kind.literals]
    exact .token isLiteral same

/-- A field is the same wherever its token stands. -/
theorem FieldDerives.shift {field : String} (derived : FieldDerives field tokens) :
    FieldDerives field (tokens.map (Token.shift distance)) := by
  cases derived with
  | @token token isWord => exact @FieldDerives.token (token.shift distance) isWord

/-- A list has the same items wherever its tokens stand, if each item has. -/
theorem SeparatedDerives.shift {α : Type} {separator : Kind} {Item : α → List Token → Prop}
    {first : α} {others : List α} (derived : SeparatedDerives separator Item first others tokens)
    (items : ∀ item tokens, Item item tokens → Item item (tokens.map (Token.shift distance))) :
    SeparatedDerives separator Item first others (tokens.map (Token.shift distance)) := by
  induction derived with
  | last derived => exact .last (items _ _ derived)
  | @more _ _ _ _ _ between derived isSeparator _ inductionHypothesis =>
    rw [List.map_append, List.map_cons]
    exact .more (items _ _ derived) (isSeparator : (between.shift distance).kind = separator)
      inductionHypothesis

/-- A clause is the same wherever its tokens stand. -/
theorem Clause.Derives.shift {clause : Clause} (derived : clause.Derives tokens) :
    clause.Derives (tokens.map (Token.shift distance)) := by
  cases derived with
  | between bounds lower isLowerLimit field isUpperLimit upper =>
    exact .between bounds (lower.shift distance) isLowerLimit (field.shift distance) isUpperLimit
      (upper.shift distance)
  | presence isKeyword spelling isEqual fields =>
    exact .presence isKeyword spelling isEqual
      (fields.shift distance fun _ _ => FieldDerives.shift distance)
  | within field opens literals closes =>
    rw [List.map_append]
    exact .within (field.shift distance) opens
      (literals.shift distance fun _ _ => Literal.Derives.shift distance) closes
  | outside field isBang opens literals closes =>
    rw [List.map_append]
    exact .outside (field.shift distance) isBang opens
      (literals.shift distance fun _ _ => Literal.Derives.shift distance) closes
  | comparison field compares operand =>
    exact .comparison (field.shift distance) compares (operand.shift distance)

end Shift

mutual

/-- A term is the same wherever its tokens stand. -/
theorem Term.Derives.shift (distance : Nat) {term : Term} {tokens : List Token} :
    Term.Derives term tokens → Term.Derives term (tokens.map (Token.shift distance))
  | .clause derived => .clause (derived.shift distance)
  | .group opens derived closes => by
    rw [List.map_append]
    exact .group opens (derived.shift distance) closes

/-- A conjunction is the same wherever its tokens stand. -/
theorem Conjunction.Derives.shift (distance : Nat) {conjunction : Conjunction}
    {tokens : List Token} :
    Conjunction.Derives conjunction tokens →
      Conjunction.Derives conjunction (tokens.map (Token.shift distance))
  | .single derived => .single (derived.shift distance)
  | .and derived isAnd further => by
    rw [List.map_append]
    exact .and (derived.shift distance) isAnd (further.shift distance)

/-- An expression is the same wherever its tokens stand. -/
theorem Disjunction.Derives.shift (distance : Nat) {expression : Disjunction}
    {tokens : List Token} :
    Disjunction.Derives expression tokens →
      Disjunction.Derives expression (tokens.map (Token.shift distance))
  | .single derived => .single (derived.shift distance)
  | .or derived isOr further => by
    rw [List.map_append]
    exact .or (derived.shift distance) isOr (further.shift distance)

end

/-- Groups are nested as deep as in one of the conjunctions. -/
theorem Conjunction.depth_append (conjunction other : Conjunction) :
    (conjunction.append other).depth = max conjunction.depth other.depth := by
  cases conjunction with
  | single term => rfl
  | and term rest => rw [append, depth, depth, depth_append rest other, Nat.max_assoc]

/-- Both conjunctions leave their marks, the first one first. -/
theorem Conjunction.marks_append (conjunction other : Conjunction) :
    (conjunction.append other).marks = conjunction.marks ++ other.marks := by
  cases conjunction with
  | single term => rfl
  | and term rest => rw [append, marks, marks, marks_append rest other, List.append_assoc]

/-- The trees of the terms are those of both conjunctions. -/
theorem Conjunction.toNodes_append (conjunction other : Conjunction) :
    (conjunction.append other).toNodes = conjunction.toNodes ++ other.toNodes := by
  cases conjunction with
  | single term => rfl
  | and term rest => rw [append, toNodes, toNodes, toNodes_append rest other, List.cons_append]

namespace Disjunction

variable (connector : Connector)

/-- Groups are nested as deep as in one of the expressions. -/
theorem depth_connect (expression other : Disjunction) :
    (expression.connect connector other).depth = max expression.depth other.depth := by
  cases expression with
  | single last =>
    cases connector with
    | and => cases other <;> simp [connect, prepend, depth, Conjunction.depth_append, Nat.max_assoc]
    | or => rfl
  | or first rest => rw [connect, depth, depth, depth_connect rest other, Nat.max_assoc]

/-- Both expressions leave their marks. -/
theorem marks_connect (expression other : Disjunction) :
    (expression.connect connector other).marks = expression.marks ++ other.marks := by
  cases expression with
  | single last =>
    cases connector with
    | and => cases other <;> simp [connect, prepend, marks, Conjunction.marks_append]
    | or => rfl
  | or first rest => rw [connect, marks, marks, marks_connect rest other, List.append_assoc]

end Disjunction

/-- The terms have the same tree and the same marks, and groups are nested as deep. -/
structure Term.Alike (term other : Term) : Prop where
  toNode : term.toNode = other.toNode
  marks : term.marks = other.marks
  depth : term.depth = other.depth

/-- The conjunctions are alike term by term. -/
inductive Conjunction.Alike : Conjunction → Conjunction → Prop where
  | single {term other : Term} (alike : term.Alike other) : Alike (.single term) (.single other)
  | and (term : Term) {rest other : Conjunction} (alike : Alike rest other) :
    Alike (.and term rest) (.and term other)

/-- The expressions are alike conjunction by conjunction. -/
inductive Disjunction.Alike : Disjunction → Disjunction → Prop where
  | single {conjunction other : Conjunction} (alike : conjunction.Alike other) :
    Alike (.single conjunction) (.single other)
  | or (conjunction : Conjunction) {rest other : Disjunction} (alike : Alike rest other) :
    Alike (.or conjunction rest) (.or conjunction other)

namespace Conjunction.Alike

variable {conjunction other : Conjunction}

/-- A conjunction is like itself. -/
theorem refl (conjunction : Conjunction) : conjunction.Alike conjunction := by
  cases conjunction with
  | single term => exact .single ⟨rfl, rfl, rfl⟩
  | and term rest => exact .and term (refl rest)

/-- Alike conjunctions have the same trees of terms. -/
theorem toNodes (alike : conjunction.Alike other) : conjunction.toNodes = other.toNodes := by
  induction alike with
  | single alike => rw [Conjunction.toNodes, Conjunction.toNodes, alike.toNode]
  | and term _ inductionHypothesis =>
    rw [Conjunction.toNodes, Conjunction.toNodes, inductionHypothesis]

/-- Alike conjunctions leave the same marks. -/
theorem marks (alike : conjunction.Alike other) : conjunction.marks = other.marks := by
  induction alike with
  | single alike => exact alike.marks
  | and term _ inductionHypothesis =>
    rw [Conjunction.marks, Conjunction.marks, inductionHypothesis]

/-- Groups are nested as deep in alike conjunctions. -/
theorem depth (alike : conjunction.Alike other) : conjunction.depth = other.depth := by
  induction alike with
  | single alike => exact alike.depth
  | and term _ inductionHypothesis =>
    rw [Conjunction.depth, Conjunction.depth, inductionHypothesis]

end Conjunction.Alike

namespace Disjunction.Alike

variable {expression other : Disjunction}

/-- An expression is like itself. -/
theorem refl (expression : Disjunction) : expression.Alike expression := by
  cases expression with
  | single conjunction => exact .single (.refl conjunction)
  | or conjunction rest => exact .or conjunction (refl rest)

/-- Alike expressions leave the same marks. -/
theorem marks (alike : expression.Alike other) : expression.marks = other.marks := by
  induction alike with
  | single alike => exact alike.marks
  | or conjunction _ inductionHypothesis =>
    rw [Disjunction.marks, Disjunction.marks, inductionHypothesis]

/-- Groups are nested as deep in alike expressions. -/
theorem depth (alike : expression.Alike other) : expression.depth = other.depth := by
  induction alike with
  | single alike => exact alike.depth
  | or conjunction _ inductionHypothesis =>
    rw [Disjunction.depth, Disjunction.depth, inductionHypothesis]

/-- What is connected to alike expressions has the same tree. -/
theorem toNode_connect (alike : expression.Alike other) (connector : Connector)
    (further : Disjunction) :
    (expression.connect connector further).toNode =
      (other.connect connector further).toNode := by
  have sameNodes : (expression.connect connector further).toNodes =
      (other.connect connector further).toNodes := by
    induction alike with
    | single alike =>
      cases connector with
      | and =>
        cases further <;>
          simp [connect, prepend, Disjunction.toNodes, Conjunction.toNodes_append, alike.toNodes]
      | or => simp [connect, Disjunction.toNodes, alike.toNodes]
    | or conjunction _ inductionHypothesis =>
      rw [connect, connect, Disjunction.toNodes, Disjunction.toNodes, inductionHypothesis]
  rw [toNode, toNode, sameNodes]

end Disjunction.Alike

/-- The last term of a conjunction. -/
def Conjunction.lastTerm : Conjunction → Term
  | .single term => term
  | .and _ rest => rest.lastTerm

/-- The last term of an expression that stands in no group. -/
def Disjunction.lastTerm : Disjunction → Term
  | .single conjunction => conjunction.lastTerm
  | .or _ rest => rest.lastTerm

/-- The tokens of an expression end in those of a term, with a connector in front unless the term
is all there is. Written otherwise, the term leaves an expression that is alike. -/
structure EndsIn {Expr : Type} (Derives : Expr → List Token → Prop) (Alike : Expr → Expr → Prop)
    (expr : Expr) (term : Term) (tokens front last : List Token) : Prop where
  split : tokens = front ++ last
  derived : term.Derives last
  connected : ∀ token ∈ front.getLast?, token.kind ∈ [Kind.and, .or]
  rewritten : ∀ (other : Term) (written : List Token), other.Derives written →
    other.Alike term → ∃ alike, Derives alike (front ++ written) ∧ Alike alike expr

namespace EndsIn

variable {Expr Whole : Type} {Derives : Expr → List Token → Prop} {Alike : Expr → Expr → Prop}
  {WholeDerives : Whole → List Token → Prop} {WholeAlike : Whole → Whole → Prop} {expr : Expr}
  {term : Term} {tokens front last : List Token} {make : Expr → Whole}

/-- An expression that stands for another one ends as it does. -/
theorem lift (ends : EndsIn Derives Alike expr term tokens front last)
    (derives : ∀ expr tokens, Derives expr tokens → WholeDerives (make expr) tokens)
    (alike : ∀ expr other, Alike expr other → WholeAlike (make expr) (make other)) :
    EndsIn WholeDerives WholeAlike (make expr) term tokens front last where
  split := ends.split
  derived := ends.derived
  connected := ends.connected
  rewritten := by
    intro other written derived same
    obtain ⟨found, foundDerived, foundAlike⟩ := ends.rewritten other written derived same
    exact ⟨make found, derives found _ foundDerived, alike found expr foundAlike⟩

/-- An expression behind a connector ends as it does alone. -/
theorem behind (ends : EndsIn Derives Alike expr term tokens front last) {before : List Token}
    {between : Token} (connects : between.kind ∈ [Kind.and, .or])
    (derives : ∀ expr tokens, Derives expr tokens →
      WholeDerives (make expr) (before ++ between :: tokens))
    (alike : ∀ expr other, Alike expr other → WholeAlike (make expr) (make other)) :
    EndsIn WholeDerives WholeAlike (make expr) term (before ++ between :: tokens)
      (before ++ between :: front) last where
  split := by simp [ends.split]
  derived := ends.derived
  connected := by
    intro token isLast
    cases front with
    | nil =>
      obtain rfl : between = token := by simpa using isLast
      exact connects
    | cons first others => exact ends.connected token (by simpa using isLast)
  rewritten := by
    intro other written derived same
    obtain ⟨found, foundDerived, foundAlike⟩ := ends.rewritten other written derived same
    refine ⟨make found, ?_, alike found expr foundAlike⟩
    rw [List.append_assoc, List.cons_append]
    exact derives found _ foundDerived

end EndsIn

/-- A conjunction ends in its last term. -/
theorem Conjunction.Derives.endsIn {conjunction : Conjunction} {tokens : List Token} :
    conjunction.Derives tokens → ∃ front last,
      EndsIn Conjunction.Derives Conjunction.Alike conjunction conjunction.lastTerm tokens front
        last
  | .single derived => ⟨[], _, rfl, derived, by simp, fun _ _ otherDerived same =>
      ⟨_, .single otherDerived, .single same⟩⟩
  | .and derived isAnd rest => by
    obtain ⟨front, last, ends⟩ := rest.endsIn
    exact ⟨_, last, ends.behind (by simp [isAnd]) (fun _ _ further => .and derived isAnd further)
      fun _ _ => .and _⟩

/-- An expression ends in its last term. -/
theorem Disjunction.Derives.endsIn {expression : Disjunction} {tokens : List Token} :
    expression.Derives tokens → ∃ front last,
      EndsIn Disjunction.Derives Disjunction.Alike expression expression.lastTerm tokens front last
  | .single derived => by
    obtain ⟨front, last, ends⟩ := derived.endsIn
    exact ⟨front, last, ends.lift (fun _ _ => .single) fun _ _ => .single⟩
  | .or derived isOr rest => by
    obtain ⟨front, last, ends⟩ := rest.endsIn
    exact ⟨_, last, ends.behind (by simp [isOr]) (fun _ _ further => .or derived isOr further)
      fun _ _ => .or _⟩

end UrlFilter
