import IngestBench.Json
import IngestBench.Yaml.Node

/-! JSON values as nodes of a document. -/

namespace IngestBench
namespace Yaml
namespace Node

mutual

/-- The node of a value. Strings are quoted, so that they are taken for nothing else. -/
def ofJson : Json → Node
  | .null => .scalar "null" .plain none
  | .bool true => .scalar "true" .plain none
  | .bool false => .scalar "false" .plain none
  | .number text => .scalar text .plain none
  | .string value => .scalar value .quoted none
  | .array items => .sequence none (ofItems items)
  | .object entries => .mapping none (ofEntries entries)

def ofItems : List Json → List Node
  | [] => []
  | item :: rest => ofJson item :: ofItems rest

def ofEntries : List (String × Json) → List (Node × Node)
  | [] => []
  | (name, value) :: rest => (.scalar name .quoted none, ofJson value) :: ofEntries rest

end

end Node
end Yaml
end IngestBench
