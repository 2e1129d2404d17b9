/-
  YAML values as documents. A key that is no text is written out; a tag becomes the only member
  of an object.
-/
import ProductSpec.Json.Writer
import ProductSpec.Yaml.Value

namespace ProductSpec.Yaml.Value

/-- The name of a member for a key. -/
def keyName : Json → String
  | .text s => s
  | other => other.compact

mutual

def toJson : Value → Json
  | null => .null
  | bool b => .bool b
  | int n => .int n
  | float x => .ofDouble x
  | text s => .text s
  | sequence items => .array (toJsons items)
  | mapping entries => .ofMembers (membersOf entries)
  | tagged tag v => .object [("!" ++ tag, toJson v)]

def toJsons : List Value → List Json
  | [] => []
  | v :: rest => toJson v :: toJsons rest

def membersOf : List (Value × Value) → List (String × Json)
  | [] => []
  | (k, v) :: rest => (keyName (toJson k), toJson v) :: membersOf rest

end

end ProductSpec.Yaml.Value
