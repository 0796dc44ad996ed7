import UrlFilter.Node.OfValue
import UrlFilter.Proofs.Expression.Shape
import UrlFilter.Proofs.Regex

/-!
# The map of a filter's tree loses nothing

The tree of a filter is read back from its map, also when the regular expressions in the map are
expanded. A field is never named like a connector and an operator never like a part of a regular
expression, so what an entry shows can be told from its key.
-/

namespace UrlFilter

/-- No field has the name of a connector. -/
theorem IsFieldName.ofTag?_eq_none {name : String} (isName : IsFieldName name) :
    Connector.ofTag? name = none := by
  have noDollar : '$' ∉ name.toList := by
    intro isChar
    exact absurd (isName.characters '$' isChar) (by decide)
  have differs : ∀ connector : Connector, connector.tag ≠ name := by
    rintro connector rfl
    cases connector <;> exact noDollar (by decide)
  simp [Connector.ofTag?, differs]

/-- No operator has the name of a part of a regular expression. -/
theorem Operator.tag_ne_pattern (operator : Operator) : operator.tag ≠ "pattern" := by
  cases operator with
  | compare comparator => cases comparator <;> decide
  | within | outside | presence => decide

namespace Value

/-- Every item of a list is expanded. -/
theorem expandRegexItems_eq_map (items : List Value) :
    expandRegexItems items = items.map expandRegex := by
  induction items with
  | nil => rfl
  | cons item rest inductionHypothesis => rw [expandRegexItems, inductionHypothesis, List.map_cons]

/-- Every value of a map is expanded, under its key. -/
theorem expandRegexEntries_eq_map (entries : List (String × Value)) :
    expandRegexEntries entries = entries.map fun (key, value) => (key, value.expandRegex) := by
  induction entries with
  | nil => rfl
  | cons entry rest inductionHypothesis =>
    rw [expandRegexEntries, inductionHypothesis, List.map_cons]

/-- A map without a pattern shows no regular expression. -/
theorem contractLiteral_map {entries : List (String × Value)}
    (noPattern : ∀ entry ∈ entries, entry.1 ≠ "pattern") :
    contractLiteral (.map entries) = .map entries := by
  unfold contractLiteral
  split
  · next same =>
    cases same
    exact absurd rfl (noPattern _ List.mem_cons_self)
  · rfl

/-- Expanding a literal is undone. -/
theorem IsLiteral.contract_expand {value : Value} (isLiteral : value.IsLiteral) :
    value.expandRegex.contractLiteral = value := by
  cases value with
  | null | bool | int | float | text => rfl
  | regex literal =>
    rw [expandRegex, contractLiteral, literal.ofParts_flagText]
  | list | map => exact absurd isLiteral id

/-- Expanding a list of literals is undone. -/
theorem contract_expand_list {items : List Value} (literals : ∀ item ∈ items, item.IsLiteral) :
    (Value.list items).expandRegex.contractOperand = .list items := by
  have each : ∀ item ∈ items, (contractLiteral ∘ expandRegex) item = id item :=
    fun item isItem => (literals item isItem).contract_expand
  rw [expandRegex, contractOperand, expandRegexItems_eq_map, List.map_map,
    List.map_congr_left each, List.map_id]

/-- Expanding the operand of an operator is undone. -/
theorem contract_expand_of_takes {operator : Operator} {operand : Value}
    (takes : operator.Takes operand) : operand.expandRegex.contractOperand = operand := by
  cases operator with
  | compare =>
    have notList : operand.expandRegex.contractOperand = operand.expandRegex.contractLiteral := by
      cases operand with
      | list => exact absurd takes id
      | null | bool | int | float | text | regex | map => rfl
    rw [notList]
    exact IsLiteral.contract_expand takes
  | within | outside =>
    obtain ⟨items, rfl, _, literals⟩ := takes
    exact contract_expand_list literals
  | presence =>
    obtain ⟨present, rfl⟩ := takes
    rfl

/-- Expanding the value of a field is undone. -/
theorem Constrains.contract_expand {value : Value} (constrains : value.Constrains) :
    value.expandRegex.contractRegex = value := by
  cases constrains with
  | literal isLiteral =>
    rw [contractRegex, isLiteral.contract_expand]
    cases value with
    | map => exact absurd isLiteral id
    | null | bool | int | float | text | regex | list => rfl
  | @operators entries _ _ operands =>
    have noPattern : ∀ entry ∈ entries.map fun (tag, operand) => (tag, operand.expandRegex),
        entry.1 ≠ "pattern" := by
      intro entry isEntry
      obtain ⟨original, isOriginal, rfl⟩ := List.mem_map.mp isEntry
      obtain ⟨operator, isTag, _⟩ := operands original isOriginal
      rw [isTag]
      exact operator.tag_ne_pattern
    have each : ∀ entry ∈ entries, (entry.1, entry.2.expandRegex.contractOperand) = id entry := by
      intro entry isEntry
      obtain ⟨_, _, takes⟩ := operands entry isEntry
      rw [contract_expand_of_takes takes]
      rfl
    rw [expandRegex, expandRegexEntries_eq_map, contractRegex, contractLiteral_map noPattern]
    simp only [List.map_map, Function.comp_def]
    rw [List.map_congr_left each, List.map_id]

end Value

namespace Node

/-- The values of some trees are those of each. -/
theorem toValues_eq_map (nodes : List Node) : toValues nodes = nodes.map toValue := by
  induction nodes with
  | nil => rfl
  | cons node rest inductionHypothesis => rw [toValues, inductionHypothesis, List.map_cons]

section Recover

variable {recovered shown : Value → Value}

/-- A map of fields is recovered as a comparison. -/
theorem recover?_fields {fields : Table Value}
    (names : ∀ entry ∈ fields, Connector.ofTag? entry.1 = none) :
    recover? recovered (.map fields) =
      some (.comparison (fields.map fun (field, value) => (field, recovered value))) := by
  unfold recover?
  split
  · next same =>
    cases same
    rw [names _ List.mem_cons_self]
    rfl
  · next same =>
    cases same
    rfl
  · next notMap => exact absurd rfl (notMap fields)

/-- One list under the tag of a connector is recovered as a joined node. -/
theorem recover?_joined (connector : Connector) (items : List Value) :
    recover? recovered (.map [(connector.tag, .list items)]) =
      (recoverAll? recovered items).map (.logical connector) := by
  cases connector <;> rfl

/-- Trees are recovered if each of them is. -/
theorem recoverAll?_map {nodes : List Node}
    (each : ∀ node ∈ nodes, recover? recovered (shown node.toValue) = some node) :
    recoverAll? recovered ((nodes.map toValue).map shown) = some nodes := by
  induction nodes with
  | nil => rfl
  | cons node rest inductionHypothesis =>
    rw [List.forall_mem_cons] at each
    rw [List.map_cons, List.map_cons, recoverAll?, each.1, inductionHypothesis each.2]

/-- A tree of the right shape is recovered from what is shown of its map, if that is shown
entry by entry and item by item and the values of fields are recovered. -/
theorem Shaped.recover?_toValue {node : Node} (shaped : node.Shaped)
    (maps : ∀ entries, shown (.map entries) =
      .map (entries.map fun (key, value) => (key, shown value)))
    (lists : ∀ items, shown (.list items) = .list (items.map shown))
    (recovers : ∀ value : Value, value.Constrains → recovered (shown value) = value) :
    recover? recovered (shown node.toValue) = some node := by
  induction shaped with
  | @comparison fields _ constraining =>
    have names : ∀ entry ∈ fields.map fun (field, value) => (field, shown value),
        Connector.ofTag? entry.1 = none := by
      intro entry isEntry
      obtain ⟨original, isOriginal, rfl⟩ := List.mem_map.mp isEntry
      exact (constraining.entries original isOriginal).1.ofTag?_eq_none
    have each : ∀ entry ∈ fields, (entry.1, recovered (shown entry.2)) = id entry := by
      intro entry isEntry
      rw [recovers entry.2 (constraining.entries entry isEntry).2]
      rfl
    rw [toValue, maps, recover?_fields names]
    simp only [List.map_map, Function.comp_def]
    rw [List.map_congr_left each, List.map_id]
  | @logical connector children _ _ _ inductionHypothesis =>
    rw [toValue, maps, List.map_singleton]
    simp only
    rw [lists, recover?_joined, toValues_eq_map, recoverAll?_map inductionHypothesis]
    rfl

end Recover

variable {node : Node}

/-- A tree of the right shape is read back from its map. -/
theorem Shaped.ofValue?_toValue (shaped : node.Shaped) : ofValue? node.toValue = some node :=
  @recover?_toValue id id node shaped (by simp) (by simp) fun _ _ => rfl

/-- A tree of the right shape is read back from its map with expanded regular expressions. -/
theorem Shaped.ofExpanded?_expandRegex (shaped : node.Shaped) :
    ofExpanded? node.toValue.expandRegex = some node := by
  refine shaped.recover?_toValue ?_ ?_ fun _ constrains => constrains.contract_expand
  · intro entries
    rw [Value.expandRegex, Value.expandRegexEntries_eq_map]
  · intro items
    rw [Value.expandRegex, Value.expandRegexItems_eq_map]

end Node

/-- The map of a filter's tree loses nothing: the tree is read back from it, whether the regular
expressions in it are expanded or not. So two filters with the same map have the same tree. -/
theorem parseFilter_recovered {depthLimit otherLimit : Int} {text otherText : String}
    {insights otherInsights after last : Insights} {filter other : Filter}
    (accepted : parseFilter depthLimit text insights = .ok filter after)
    (otherAccepted : parseFilter otherLimit otherText otherInsights = .ok other last) :
    Node.ofValue? filter.node.toValue = some filter.node ∧
    Node.ofExpanded? filter.node.toValue.expandRegex = some filter.node ∧
    (filter.node.toValue = other.node.toValue → filter.node = other.node) ∧
    (filter.node.toValue.expandRegex = other.node.toValue.expandRegex →
      filter.node = other.node) := by
  obtain ⟨_, scanned, _, derived, _, _⟩ := parseFilter_eq_ok.mp accepted
  obtain ⟨_, otherScanned, _, otherDerived, _, _⟩ := parseFilter_eq_ok.mp otherAccepted
  have shaped : filter.node.Shaped := derived.shaped scanned
  have otherShaped : other.node.Shaped := otherDerived.shaped otherScanned
  refine ⟨shaped.ofValue?_toValue, shaped.ofExpanded?_expandRegex, ?_, ?_⟩
  · intro same
    have recovered := shaped.ofValue?_toValue
    rw [same, otherShaped.ofValue?_toValue] at recovered
    exact (Option.some.inj recovered).symm
  · intro same
    have recovered := shaped.ofExpanded?_expandRegex
    rw [same, otherShaped.ofExpanded?_expandRegex] at recovered
    exact (Option.some.inj recovered).symm

/-- Two fields are named like the parts of a regular expression. -/
def fieldsLikeRegex : Disjunction :=
  .single (.and (.clause (.comparison "pattern" .equal (.word "b")))
    (.single (.clause (.comparison "flags" .equal (.word "i")))))

/-- Regular expressions stand alone, under an operator and in a list. -/
def regexesAnywhere : Disjunction :=
  .or (.single (.clause (.comparison "pattern" .equal (.regex ⟨"b", [.ignoreCase]⟩))))
    (.single (.and
      (.clause (.membership "flags" true (.regex ⟨"b", [.ignoreCase]⟩) [.word "i"]))
      (.single (.clause (.comparison "flags" .matching (.regex ⟨"", []⟩))))))

/-- Fields that look like a regular expression are told from one. -/
theorem parseFilter_recovered_likeRegex :
    ∃ filter after other last,
      parseFilter 1 "pattern=b&flags=i" Insights.empty = .ok filter after ∧
      parseFilter 1 "pattern=/b/i^flags\x7b/b/i,i\x7d&flags~=//" Insights.empty = .ok other last ∧
      Node.ofExpanded? (.map [("pattern", .text "b"), ("flags", .text "i")]) =
        some filter.node ∧
      Node.ofExpanded? (.map [("$or", .list
          [.map [("pattern", .map [("pattern", .text "b"), ("flags", .text "i")])],
            .map [("flags", .map
              [("$in", .list [.map [("pattern", .text "b"), ("flags", .text "i")], .text "i"]),
                ("$regex", .map [("pattern", .text ""), ("flags", .text "")])])]])]) =
        some other.node ∧
      other.node = .logical .or
        [.comparison [("pattern", .regex ⟨"b", [.ignoreCase]⟩)],
          .comparison [("flags", .map [("$in", .list [.regex ⟨"b", [.ignoreCase]⟩, .text "i"]),
            ("$regex", .regex ⟨"", []⟩)])]] := by
  have writable : fieldsLikeRegex.isWritable = true := by rfl
  have otherWritable : regexesAnywhere.isWritable = true := by rfl
  have nested : fieldsLikeRegex.NestedWithin 1 := .inr (by decide)
  have otherNested : regexesAnywhere.NestedWithin 1 := .inr (by decide)
  obtain ⟨tokens, scanned, derived⟩ := Disjunction.tokenize_source writable
  obtain ⟨others, otherScanned, otherDerived⟩ := Disjunction.tokenize_source otherWritable
  have accepted : parseFilter 1 "pattern=b&flags=i" Insights.empty =
      .ok ⟨fieldsLikeRegex, tokens.length⟩ _ :=
    parseFilter_eq_ok.mpr ⟨tokens, scanned, rfl, derived, nested, rfl⟩
  have otherAccepted :
      parseFilter 1 "pattern=/b/i^flags\x7b/b/i,i\x7d&flags~=//" Insights.empty =
        .ok ⟨regexesAnywhere, others.length⟩ _ :=
    parseFilter_eq_ok.mpr ⟨others, otherScanned, rfl, otherDerived, otherNested, rfl⟩
  exact ⟨_, _, _, _, accepted, otherAccepted,
    (parseFilter_recovered accepted otherAccepted).2.1,
    (parseFilter_recovered otherAccepted accepted).2.1, by rfl⟩

end UrlFilter
