import Mathlib.Data.List.Basic
import UrlFilter.Token.Pattern

/-!
# Outcomes of patterns

A pattern leaves some end of the text. The preferred outcome of a sequence is found by trying the
outcomes of its first part in order. A repeated pattern that takes a character each time is tried
once more before it is left, however often it has been taken.
-/

namespace UrlFilter.Pattern

variable {inClass : Char → Bool} {inner first second third : Pattern} {text rest : List Char}

/-- What the preferred match leaves of a text. -/
def preferred? (pattern : Pattern) (text : List Char) : Option (List Char) :=
  (pattern.outcomes text).head?

section Equations

/-- A character cannot be taken from an empty text. -/
@[simp] theorem outcomes_one_nil : (one inClass).outcomes [] = [] :=
  rfl

/-- The first character is taken if it is in the class. -/
@[simp] theorem outcomes_one_cons (c : Char) (rest : List Char) :
    (one inClass).outcomes (c :: rest) = if inClass c then [rest] else [] :=
  rfl

/-- Two parts in a row leave what the second leaves of what the first leaves. -/
theorem outcomes_seq (first second : Pattern) (text : List Char) :
    (seq first second).outcomes text = (first.outcomes text).flatMap second.outcomes :=
  rfl

/-- The outcomes of the first alternative are preferred to those of the second. -/
theorem outcomes_either (first second : Pattern) (text : List Char) :
    (either first second).outcomes text = first.outcomes text ++ second.outcomes text :=
  rfl

/-- Three parts in a row may be bracketed in both ways. -/
theorem outcomes_seq_assoc (first second third : Pattern) (text : List Char) :
    (seq (seq first second) third).outcomes text =
      (seq first (seq second third)).outcomes text := by
  rw [outcomes_seq, outcomes_seq, outcomes_seq, List.flatMap_assoc]
  rfl

end Equations

section Suffixes

/-- What relates a text to everything that a step leaves of it relates it to everything that is
left when the step is repeated. -/
theorem of_mem_repeatedly {step : List Char → List (List Char)}
    (relation : List Char → List Char → Prop) (stays : ∀ text, relation text text)
    (goesOn : ∀ text middle rest, relation text middle → relation middle rest → relation text rest)
    (leaves : ∀ text, ∀ rest ∈ step text, relation text rest) (count : Nat) :
    ∀ rest ∈ repeatedly step count text, relation text rest := by
  induction count generalizing text with
  | zero => simp [repeatedly, stays]
  | succ count inductionHypothesis =>
    intro rest isOutcome
    rw [repeatedly, List.mem_append, List.mem_flatMap, List.mem_singleton] at isOutcome
    rcases isOutcome with ⟨middle, isMiddle, isRest⟩ | rfl
    · exact goesOn text middle rest (leaves text middle isMiddle) (inductionHypothesis rest isRest)
    · exact stays rest

/-- Every outcome is an end of the text. -/
theorem suffix_of_mem_outcomes (pattern : Pattern) (text : List Char) :
    ∀ rest ∈ pattern.outcomes text, rest <:+ text := by
  induction pattern generalizing text with
  | nothing => simp [outcomes]
  | one inClass =>
    cases text with
    | nil => simp
    | cons c others =>
      rw [outcomes_one_cons]
      split <;> simp
  | unlessNext inClass =>
    rw [outcomes]
    split <;> simp
  | seq first second firstEnds secondEnds =>
    intro rest isOutcome
    rw [outcomes_seq, List.mem_flatMap] at isOutcome
    obtain ⟨middle, isMiddle, isRest⟩ := isOutcome
    exact (secondEnds middle rest isRest).trans (firstEnds text middle isMiddle)
  | either first second firstEnds secondEnds =>
    rw [outcomes_either, List.forall_mem_append]
    exact ⟨firstEnds text, secondEnds text⟩
  | many inner innerEnds =>
    refine of_mem_repeatedly (fun text rest => rest <:+ text) List.suffix_refl ?_ innerEnds
      text.length
    intro text middle rest middleEnds restEnds
    exact restEnds.trans middleEnds

/-- What is left of a text behind what is taken from it, if something is. -/
def restBehind (text : List Char) (taken : Option (List Char)) : Option (List Char) :=
  taken.map fun lexeme => text.drop lexeme.length

/-- Nothing is left if nothing is taken. -/
@[simp] theorem restBehind_none (text : List Char) : restBehind text none = none :=
  rfl

/-- What is left stands behind what is taken. -/
@[simp] theorem restBehind_some (text lexeme : List Char) :
    restBehind text (some lexeme) = some (text.drop lexeme.length) :=
  rfl

/-- One more character in front of the text and of what is taken leaves the same. -/
@[simp] theorem restBehind_cons (c : Char) (text : List Char) (taken : Option (List Char)) :
    restBehind (c :: text) (taken.map (c :: ·)) = restBehind text taken := by
  cases taken <;> rfl

/-- Two more characters in front of the text and of what is taken leave the same. -/
@[simp] theorem restBehind_cons_cons (c next : Char) (text : List Char)
    (taken : Option (List Char)) :
    restBehind (c :: next :: text) (taken.map fun lexeme => c :: next :: lexeme) =
      restBehind text taken := by
  cases taken <;> rfl

/-- The preferred match takes what stands in front of what it leaves. -/
theorem match?_eq {pattern : Pattern} {found : Option (List Char)}
    (inFront : ∀ lexeme ∈ found, ∃ rest, text = lexeme ++ rest)
    (leaves : pattern.preferred? text = restBehind text found) :
    pattern.match? text = found := by
  have outcome : (pattern.outcomes text).head? = restBehind text found := leaves
  rw [match?, outcome]
  cases found with
  | none => rfl
  | some lexeme =>
    obtain ⟨rest, rfl⟩ := inFront lexeme rfl
    simp

end Suffixes

section Repetition

/-- Whatever the pattern takes has a character. -/
def Consumes (pattern : Pattern) : Prop :=
  ∀ text, ∀ rest ∈ pattern.outcomes text, rest.length < text.length

/-- A character of a class is taken. -/
theorem one_consumes (inClass : Char → Bool) : (one inClass).Consumes := by
  intro text rest isOutcome
  cases text with
  | nil => simp at isOutcome
  | cons c others =>
    rw [outcomes_one_cons] at isOutcome
    split at isOutcome
    · rw [List.mem_singleton.mp isOutcome]
      exact Nat.lt_succ_self _
    · cases isOutcome

/-- An alternative takes something if both of its parts do. -/
theorem Consumes.orElse (firstConsumes : first.Consumes) (secondConsumes : second.Consumes) :
    (either first second).Consumes := by
  intro text
  rw [outcomes_either, List.forall_mem_append]
  exact ⟨firstConsumes text, secondConsumes text⟩

/-- A sequence takes something if its first part does. -/
theorem Consumes.followedBy (firstConsumes : first.Consumes) (second : Pattern) :
    (seq first second).Consumes := by
  intro text rest isOutcome
  rw [outcomes_seq, List.mem_flatMap] at isOutcome
  obtain ⟨middle, isMiddle, isRest⟩ := isOutcome
  have isShorter := firstConsumes text middle isMiddle
  have isEnd := (suffix_of_mem_outcomes second middle rest isRest).length_le
  omega

/-- Nothing is taken from an empty text. -/
theorem Consumes.outcomes_nil (consumes : inner.Consumes) : inner.outcomes [] = [] := by
  rw [List.eq_nil_iff_forall_not_mem]
  intro rest isOutcome
  exact absurd (consumes [] rest isOutcome) (Nat.not_lt_zero _)

/-- A step that takes a character each time cannot be taken more often than the text has
characters, so greater counts make no difference. -/
theorem Consumes.repeatedly_eq (consumes : inner.Consumes) {count more : Nat}
    (enough : text.length ≤ count) (moreEnough : text.length ≤ more) :
    repeatedly inner.outcomes count text = repeatedly inner.outcomes more text := by
  induction count generalizing more text with
  | zero =>
    obtain rfl := List.length_eq_zero_iff.mp (Nat.le_zero.mp enough)
    cases more <;> simp [repeatedly, consumes.outcomes_nil]
  | succ count inductionHypothesis =>
    cases more with
    | zero =>
      obtain rfl := List.length_eq_zero_iff.mp (Nat.le_zero.mp moreEnough)
      simp [repeatedly, consumes.outcomes_nil]
    | succ more =>
      have same : (inner.outcomes text).flatMap (repeatedly inner.outcomes count) =
          (inner.outcomes text).flatMap (repeatedly inner.outcomes more) := by
        refine List.flatMap_congr fun rest isOutcome => ?_
        have isShorter := consumes text rest isOutcome
        exact inductionHypothesis (by omega) (by omega)
      rw [repeatedly, repeatedly, same]

/-- A repeated pattern is taken once more, or it is left. -/
theorem Consumes.outcomes_many (consumes : inner.Consumes) (text : List Char) :
    (many inner).outcomes text =
      (inner.outcomes text).flatMap (many inner).outcomes ++ [text] := by
  have counted : (many inner).outcomes text =
      repeatedly inner.outcomes (text.length + 1) text :=
    consumes.repeatedly_eq (Nat.le_refl _) (Nat.le_succ _)
  have further : (inner.outcomes text).flatMap (repeatedly inner.outcomes text.length) =
      (inner.outcomes text).flatMap (many inner).outcomes := by
    refine List.flatMap_congr fun rest isOutcome => ?_
    exact consumes.repeatedly_eq (Nat.le_of_lt (consumes text rest isOutcome)) (Nat.le_refl _)
  rw [counted, repeatedly, further]

/-- What follows a repeated pattern is tried after every further repetition has been. -/
theorem Consumes.outcomes_many_seq (consumes : inner.Consumes) (next : Pattern)
    (text : List Char) :
    (seq (many inner) next).outcomes text =
      (inner.outcomes text).flatMap (seq (many inner) next).outcomes ++ next.outcomes text := by
  have unfolded : (seq (many inner) next).outcomes =
      fun text => ((many inner).outcomes text).flatMap next.outcomes := rfl
  rw [unfolded]
  simp only [consumes.outcomes_many text, List.flatMap_append, List.flatMap_assoc,
    List.flatMap_singleton]

/-- What cannot be taken is not repeated. -/
theorem outcomes_many_of_nil (untaken : inner.outcomes text = []) :
    (many inner).outcomes text = [text] := by
  rw [outcomes]
  cases text.length <;> simp [repeatedly, untaken]

end Repetition

section Preferred

/-- A sequence prefers the first outcome of its first part behind which the second part matches.
-/
theorem preferred?_seq (first second : Pattern) (text : List Char) :
    (seq first second).preferred? text = (first.outcomes text).findSome? second.preferred? := by
  rw [preferred?, outcomes_seq, List.head?_flatMap]
  rfl

/-- Three parts in a row prefer the same in both bracketings. -/
theorem preferred?_seq_assoc (first second third : Pattern) (text : List Char) :
    (seq (seq first second) third).preferred? text =
      (seq first (seq second third)).preferred? text := by
  rw [preferred?, outcomes_seq_assoc]
  rfl

/-- The second alternative counts where the first one does not match. -/
theorem preferred?_either (first second : Pattern) (text : List Char) :
    (either first second).preferred? text =
      (first.preferred? text).or (second.preferred? text) := by
  rw [preferred?, outcomes_either, List.head?_append]
  rfl

/-- The second alternative is tried where the first one is not followed by what has to follow. -/
theorem preferred?_either_seq (first second next : Pattern) (text : List Char) :
    (seq (either first second) next).preferred? text =
      ((seq first next).preferred? text).or ((seq second next).preferred? text) := by
  rw [preferred?_seq, outcomes_either, List.findSome?_append, ← preferred?_seq, ← preferred?_seq]

/-- What may be left out is taken, unless what follows it does not match behind it. -/
theorem preferred?_optional_seq (inner next : Pattern) (text : List Char) :
    (seq (optional inner) next).preferred? text =
      ((seq inner next).preferred? text).or (next.preferred? text) := by
  have leftOut : (seq nothing next).preferred? text = next.preferred? text := by
    simp [preferred?_seq, outcomes]
  rw [optional, preferred?_either_seq, leftOut]

/-- A look at the next character takes nothing and fails if the character is in the class. -/
theorem preferred?_unlessNext (inClass : Char → Bool) (text : List Char) :
    (unlessNext inClass).preferred? text =
      if text.head?.any inClass then none else some text := by
  rw [preferred?, outcomes]
  split <;> rfl

/-- What follows a look at the next character matches alone if the look does not fail. -/
theorem preferred?_unlessNext_seq (inClass : Char → Bool) (next : Pattern) (text : List Char) :
    (seq (unlessNext inClass) next).preferred? text =
      if text.head?.any inClass then none else next.preferred? text := by
  rw [preferred?_seq, outcomes]
  split <;> simp

/-- A sequence that starts with a character does not match an empty text. -/
@[simp] theorem preferred?_one_seq_nil (next : Pattern) :
    (seq (one inClass) next).preferred? [] = none :=
  rfl

/-- A sequence that starts with a character goes on behind it. -/
@[simp] theorem preferred?_one_seq_cons (next : Pattern) (c : Char) (rest : List Char) :
    (seq (one inClass) next).preferred? (c :: rest) =
      if inClass c then next.preferred? rest else none := by
  rw [preferred?_seq, outcomes_one_cons]
  split <;> simp

/-- The longest run is preferred. -/
theorem preferred?_run (inClass : Char → Bool) (text : List Char) :
    (many (one inClass)).preferred? text = some (text.dropWhile inClass) := by
  induction text with
  | nil => rfl
  | cons c rest inductionHypothesis =>
    rw [preferred?, (one_consumes inClass).outcomes_many, outcomes_one_cons]
    cases isInside : inClass c with
    | false => simp [isInside]
    | true =>
      have further : ((many (one inClass)).outcomes rest).head? =
          some (rest.dropWhile inClass) := inductionHypothesis
      simp [isInside, List.head?_append, further]

/-- A run is taken as far as what follows it allows. -/
theorem preferred?_run_seq_cons (inClass : Char → Bool) (next : Pattern) (c : Char)
    (rest : List Char) :
    (seq (many (one inClass)) next).preferred? (c :: rest) =
      (if inClass c then (seq (many (one inClass)) next).preferred? rest else none).or
        (next.preferred? (c :: rest)) := by
  rw [preferred?, (one_consumes inClass).outcomes_many_seq, outcomes_one_cons, List.head?_append]
  split <;> simp [preferred?]

/-- A run of an empty text is empty. -/
theorem preferred?_run_seq_nil (inClass : Char → Bool) (next : Pattern) :
    (seq (many (one inClass)) next).preferred? [] = next.preferred? [] := by
  rw [preferred?, (one_consumes inClass).outcomes_many_seq]
  rfl

/-- Where what follows a run cannot start inside of it, the whole run is taken. -/
theorem preferred?_run_seq {next : Pattern}
    (outside : ∀ c rest, inClass c = true → next.preferred? (c :: rest) = none)
    (text : List Char) :
    (seq (many (one inClass)) next).preferred? text =
      next.preferred? (text.dropWhile inClass) := by
  induction text with
  | nil => exact preferred?_run_seq_nil inClass next
  | cons c rest inductionHypothesis =>
    rw [preferred?_run_seq_cons]
    cases isInside : inClass c with
    | false => simp [isInside]
    | true => simp [isInside, outside c rest isInside, inductionHypothesis]

/-- A repeated pattern always matches, if only by taking nothing. -/
theorem isSome_preferred?_many (inner : Pattern) (text : List Char) :
    ((many inner).preferred? text).isSome = true := by
  rw [preferred?, outcomes]
  cases text.length <;> simp [repeatedly, List.head?_append]

end Preferred

end UrlFilter.Pattern
