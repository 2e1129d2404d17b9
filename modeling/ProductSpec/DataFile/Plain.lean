/-
  The plain document of a file: parts are keyed by name and values stand without their types. It
  is what the JSON Schema of a dataset describes.
-/
import ProductSpec.DataFile.Basic

namespace ProductSpec

open Json

def plainAttributes (attributes : NameMap AttributeValue) : Json :=
  ofMap AttributeValue.toPlain attributes

def FileVariable.toPlain (v : FileVariable) : Json :=
  .object [("attributes", plainAttributes v.attributes), ("datatype", .text v.dataType.token),
    ("dimensions", .array (v.dimensions.map .text))]

namespace FileGroup

mutual

/-- Of two parts with one name the later one stays. -/
def toPlain : FileGroup → Json
  | ⟨_, attributes, dimensions, vars, groups⟩ =>
    .object [("attributes", plainAttributes attributes),
      ("dimensions", ofMembers (dimensions.map fun d => (d.name, ofNat d.size.toNat))),
      ("groups", ofMembers (plainGroups groups)),
      ("variables", ofMembers (vars.map fun v => (v.name, v.toPlain)))]

def plainGroups : List FileGroup → List (String × Json)
  | [] => []
  | g :: rest => (g.name, toPlain g) :: plainGroups rest

end

end FileGroup

end ProductSpec
