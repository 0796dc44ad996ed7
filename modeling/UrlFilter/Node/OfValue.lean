import UrlFilter.Node

/-!
# Trees read back from maps

A map shows a joined node by one entry under the tag of its connector, and a comparison by its
fields. Regular expressions may stand in it as they are or expanded to maps of their pattern and
their flags. A map of fields may look like one of these, so they are looked for only where a
literal can stand.
-/

namespace UrlFilter

namespace Value

/-- The literal that is shown: a map of a pattern and flags shows a regular expression. -/
def contractLiteral : Value → Value
  | .map [("pattern", .text pattern), ("flags", .text flags)] =>
    match Regex.ofParts pattern flags with
    | .ok literal => .regex literal
    | .error _ => .map [("pattern", .text pattern), ("flags", .text flags)]
  | other => other

/-- The operand that is shown: a literal or a list of literals. -/
def contractOperand : Value → Value
  | .list items => .list (items.map contractLiteral)
  | other => other.contractLiteral

/-- The value of a field that is shown: a literal or a map from operators to operands. -/
def contractRegex (value : Value) : Value :=
  match value.contractLiteral with
  | .map entries => .map (entries.map fun (tag, operand) => (tag, operand.contractOperand))
  | literal => literal

end Value

namespace Node

mutual

/-- The tree that a map shows, given how the value of a field is recovered. -/
def recover? (recovered : Value → Value) : Value → Option Node
  | .map [(tag, .list items)] =>
    match Connector.ofTag? tag with
    | some connector => (recoverAll? recovered items).map (.logical connector)
    | none => some (.comparison [(tag, recovered (.list items))])
  | .map entries => some (.comparison (entries.map fun (field, value) => (field, recovered value)))
  | _ => none

/-- The trees that maps show. -/
def recoverAll? (recovered : Value → Value) : List Value → Option (List Node)
  | [] => some []
  | item :: rest =>
    match recover? recovered item, recoverAll? recovered rest with
    | some node, some nodes => some (node :: nodes)
    | _, _ => none

end

/-- The tree that a map shows. -/
def ofValue? : Value → Option Node :=
  recover? id

/-- The tree that a map with expanded regular expressions shows. -/
def ofExpanded? : Value → Option Node :=
  recover? Value.contractRegex

end Node

end UrlFilter
