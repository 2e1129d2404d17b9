/-
  Datasets in documents: a member for each part, the parts of the root group beside its name.
-/
import ProductSpec.Attribute.Codec
import ProductSpec.Dataset.Basic

namespace ProductSpec

open Json

namespace NodeInfo

def toJson (i : NodeInfo) : Json :=
  .object (optional "description" (i.description.map .text) ++ [("required", .bool i.required)] ++
    optional "short_name" (i.shortName.map .text) ++
    optional "file_pattern" (i.filePattern.map .text) ++
    optional "canonical_name" (i.canonicalName.map .text))

def decode (j : Json) : Decoded NodeInfo := do
  let r ← record ["description", "required", "short_name", "file_pattern", "canonical_name"] j
  let description ← r.optional "description" decodeText
  let required ← r.withDefault "required" true decodeBool
  let shortName ← r.optional "short_name" decodeText
  let filePattern ← r.optional "file_pattern" decodeText
  let canonicalName ← r.optional "canonical_name" decodeText
  r.finish
  return ⟨description, required, shortName, filePattern, canonicalName⟩

end NodeInfo

namespace DimensionSize

def toJson : DimensionSize → Json
  | fixed n => .ofNat n.toNat
  | unlimited => .null

end DimensionSize

namespace Dimension

def toJson (d : Dimension) : Json :=
  .object [("name", .text d.name), ("size", d.size.toJson), ("meta", d.info.toJson)]

/-- The size may be null. In an object it may be left out as well, but not in an array. -/
def decodeSize (r : Record) : Json → Decoded (Option UInt64)
  | .array _ => r.required "size" (decodeNullable decodeWord)
  | _ => r.optional "size" decodeWord

def decode (j : Json) : Decoded Dimension := do
  let r ← record ["name", "size", "meta"] j
  let name ← r.required "name" decodeText
  let size ← decodeSize r j
  let info ← r.withDefault "meta" .plain NodeInfo.decode
  r.finish
  return ⟨name, .ofOption size, info⟩

end Dimension

namespace Variable

def toJson (v : Variable) : Json :=
  .object [("name", .text v.name), ("data_type", v.dataType.toJson),
    ("dimensions", .array (v.dimensions.map .text)),
    ("attributes", .array (v.attributes.map AttributeConstraint.toJson)),
    ("meta", v.info.toJson)]

def decode (j : Json) : Decoded Variable := do
  let r ← record ["name", "data_type", "dimensions", "attributes", "meta"] j
  let name ← r.required "name" decodeText
  let dataType ← r.required "data_type" BaseType.decode
  let dimensions ← r.required "dimensions" (decodeList decodeText)
  let attributes ← r.withDefault "attributes" [] (decodeList AttributeConstraint.decode)
  let info ← r.withDefault "meta" .plain NodeInfo.decode
  r.finish
  return ⟨name, dataType, dimensions, attributes, info⟩

end Variable

namespace Group

mutual

def toJson : Group → Json
  | ⟨name, info, attributes, dimensions, vars, groups⟩ =>
    .object [("name", .text name), ("meta", info.toJson),
      ("attributes", .array (attributes.map AttributeConstraint.toJson)),
      ("dimensions", .array (dimensions.map Dimension.toJson)),
      ("variables", .array (vars.map Variable.toJson)),
      ("groups", .array (toJsons groups))]

def toJsons : List Group → List Json
  | [] => []
  | g :: rest => toJson g :: toJsons rest

end

def memberNames : List String :=
  ["name", "meta", "attributes", "dimensions", "variables", "groups"]

mutual

/-- A group is an object; it cannot be an array of its parts. -/
def decode : Json → Decoded Group
  | .object members => do
    let r ← record memberNames (.object members)
    let name ← r.required "name" decodeText
    let info ← r.withDefault "meta" .plain NodeInfo.decode
    let attributes ← r.withDefault "attributes" [] (decodeList AttributeConstraint.decode)
    let dimensions ← r.withDefault "dimensions" [] (decodeList Dimension.decode)
    let vars ← r.withDefault "variables" [] (decodeList Variable.decode)
    let groups ← groupsOfMembers members
    return ⟨name, info, attributes, dimensions, vars, groups⟩
  | _ => .error .shape

def groupsOfMembers : List (String × Json) → Decoded (List Group)
  | [] => .ok []
  | (name, value) :: rest => if name = "groups" then decodeGroups value else groupsOfMembers rest

def decodeGroups : Json → Decoded (List Group)
  | .array items => decodeAll items
  | _ => .error .shape

def decodeAll : List Json → Decoded (List Group)
  | [] => .ok []
  | item :: rest => do return (← decode item) :: (← decodeAll rest)

end

end Group

end ProductSpec
