/-
  The JSON Schema of a dataset: which parts a file has, which of them are required, and what types
  their values have in the plain document of the file. Fixed values and sizes are not in it. The
  members of each object stand in the order of their names. A document fits the schema of a release
  if it fits that of one of the products.
-/
import ProductSpec.Dataset.Basic
import ProductSpec.Json.Basic
import ProductSpec.JsonSchema.Reference

namespace ProductSpec

open Json

namespace JsonSchema

/-- The version of JSON Schema that the documents are written in. -/
def draft : Json := .text "http://json-schema.org/draft-07/schema#"

def texts (names : List String) : Json := .array (names.map .text)

def description (i : NodeInfo) : List (String × Json) :=
  optional "description" (i.description.map .text)

/-- An object with given members, some of which have to be there. -/
def object (properties : Json) (required : List String) : List (String × Json) :=
  [("properties", properties), ("required", texts required), ("type", .text "object")]

/-- An object that is keyed by the names of parts. -/
def keyed (properties : List (String × Json)) (required : List String) : Json :=
  .object (object (ofMembers properties) required)

end JsonSchema

open JsonSchema

/-- A float may also be null, which stands for NaN. -/
def BaseType.schemaType (t : BaseType) : Json :=
  if t.isFloat then texts ["number", "null"] else .text t.jsonType

namespace Literal

mutual

/-- The types of the plain values that match a literal. A list with one element may be stored as
a scalar. -/
def schemaTypes : Literal → List String
  | text _ => ["string"]
  | int _ | float _ => ["number"]
  | list items => schemaTypesAll ["array"] items

/-- The types so far, and those of further items that are new. -/
def schemaTypesAll (found : List String) : List Literal → List String
  | [] => found
  | item :: rest =>
    schemaTypesAll (found ++ (schemaTypes item).filter fun t => t ∉ found) rest

end

end Literal

namespace AttributeConstraint

def schema (c : AttributeConstraint) : Json :=
  match c.kind with
  | .literal l =>
    match l.schemaTypes with
    | [t] => .object [("type", .text t)]
    | types => .object [("type", texts types)]
  | .placeholder p =>
    let one := Json.object [("type", p.baseType.schemaType)]
    if p.isArray then
      .object [("anyOf", .array [one, .object [("items", one), ("type", .text "array")]])]
    else one

end AttributeConstraint

namespace JsonSchema

def requiredAttributes (constraints : List AttributeConstraint) : List String :=
  (constraints.filter AttributeConstraint.isRequired).map AttributeConstraint.name

def ofAttributes (constraints : List AttributeConstraint) : Json :=
  keyed (constraints.map fun c => (c.name, c.schema)) (requiredAttributes constraints)

def ofDimension (d : Dimension) : Json :=
  .object (description d.info ++ [("minimum", .int 0), ("type", .text "integer")])

def ofVariable (v : Variable) : Json :=
  .object (description v.info ++ object
    (.object [("attributes", ofAttributes v.attributes),
      ("datatype", .object [("enum", texts [v.dataType.token])]),
      ("dimensions", .object
        [("items", .object [("type", .text "string")]), ("type", .text "array")])])
    ["datatype", "dimensions", "attributes"])

def requiredDimensions (ds : List Dimension) : List String :=
  (ds.filter fun d => d.info.required).map Dimension.name

def requiredVariables (vs : List Variable) : List String :=
  (vs.filter fun v => v.info.required).map Variable.name

def requiredGroups (gs : List Group) : List String :=
  (gs.filter fun g => g.info.required).map Group.name

/-- The kinds of parts of which at least one is required. -/
def requiredParts (g : Group) : List String :=
  (if (requiredAttributes g.attributes).isEmpty then [] else ["attributes"]) ++
    (if (requiredDimensions g.dimensions).isEmpty then [] else ["dimensions"]) ++
    (if (requiredVariables g.vars).isEmpty then [] else ["variables"]) ++
    (if (requiredGroups g.groups).isEmpty then [] else ["groups"])

mutual

/-- The schemas for the parts of a group. -/
def parts : Group → Json
  | ⟨_, _, attributes, dimensions, vars, groups⟩ =>
    .object [("attributes", ofAttributes attributes),
      ("dimensions",
        keyed (dimensions.map fun d => (d.name, ofDimension d)) (requiredDimensions dimensions)),
      ("groups", keyed (ofGroups groups) (requiredGroups groups)),
      ("variables",
        keyed (vars.map fun v => (v.name, ofVariable v)) (requiredVariables vars))]

def ofGroups : List Group → List (String × Json)
  | [] => []
  | g :: rest =>
    (g.name, .object (description g.info ++ object (parts g) (requiredParts g))) :: ofGroups rest

end

/-- The schema of a group without a title. -/
def ofGroup (g : Group) : Json :=
  .object (description g.info ++ object (parts g) (requiredParts g))

/-- The schema of one product. -/
def ofDataset (d : Dataset) : Json :=
  .object ([("$schema", draft)] ++ description d.info ++
    [("properties", parts d), ("required", texts (requiredParts d)),
      ("title", .text d.productName), ("type", .text "object")])

/-- The schema of a release: what fits one of the products fits it. -/
def ofProducts (products : NameMap Dataset) : Json :=
  .object [("$schema", draft),
    ("anyOf", .array (products.names.map fun name =>
      .object [("$ref", .text (referenceTo name))])),
    ("definitions", Json.ofMap ofGroup products), ("title", .text "dataset")]

end JsonSchema

end ProductSpec
