/-
  File contents in documents. A group may leave out what it does not have. Of several faults the
  one that comes first in the document counts, so members are read in the document's order.
-/
import ProductSpec.Attribute.Codec
import ProductSpec.DataFile.Basic

namespace ProductSpec

open Json

/-- The attributes of one block; of two with one name the later one counts. -/
def decodeAttributes : Json → Decoded (NameMap AttributeValue)
  | .object members => do
    return .ofList (← members.mapM fun (name, value) => do
      return (name, ← AttributeValue.decode value))
  | _ => .error .shape

namespace FileDimension

def toJson (d : FileDimension) : Json :=
  .object [("name", .text d.name), ("size", .ofNat d.size.toNat), ("unlimited", .bool d.unlimited)]

def decode (j : Json) : Decoded FileDimension := do
  let r ← record ["name", "size", "unlimited"] j
  let name ← r.required "name" decodeText
  let size ← r.required "size" decodeWord
  let unlimited ← r.withDefault "unlimited" false decodeBool
  r.finish
  return ⟨name, size, unlimited⟩

end FileDimension

namespace FileVariable

def toJson (v : FileVariable) : Json :=
  .object [("name", .text v.name), ("data_type", v.dataType.toJson),
    ("dimensions", .array (v.dimensions.map .text)),
    ("attributes", ofMap AttributeValue.toJson v.attributes)]

/-- What has been read of a variable. -/
structure Draft where
  name : Option String
  dataType : Option BaseType
  dimensions : List String
  attributes : NameMap AttributeValue

namespace Draft

def blank : Draft := ⟨none, none, [], ∅⟩

def withMember (d : Draft) (name : String) (value : Json) : Decoded Draft :=
  match name with
  | "name" => (decodeText value).map fun s => { d with name := some s }
  | "data_type" => (BaseType.decode value).map fun t => { d with dataType := some t }
  | "dimensions" => (decodeList decodeText value).map fun names => { d with dimensions := names }
  | "attributes" => (decodeAttributes value).map fun m => { d with attributes := m }
  | _ => .ok d

/-- A variable has a name and a data type. -/
def finish (d : Draft) : Decoded FileVariable :=
  match d.name, d.dataType with
  | some name, some dataType => .ok ⟨name, dataType, d.dimensions, d.attributes⟩
  | _, _ => .error .shape

end Draft

def decode (j : Json) : Decoded FileVariable := do
  let r ← record ["name", "data_type", "dimensions", "attributes"] j
  let draft ← r.members.foldlM (fun d (name, value) => d.withMember name value) Draft.blank
  let v ← draft.finish
  r.finish
  return v

end FileVariable

namespace FileGroup

mutual

def toJson : FileGroup → Json
  | ⟨name, attributes, dimensions, vars, groups⟩ =>
    .object [("name", .text name), ("attributes", ofMap AttributeValue.toJson attributes),
      ("dimensions", .array (dimensions.map FileDimension.toJson)),
      ("variables", .array (vars.map FileVariable.toJson)),
      ("groups", .array (toJsons groups))]

def toJsons : List FileGroup → List Json
  | [] => []
  | g :: rest => toJson g :: toJsons rest

end

def memberNames : List String := ["name", "attributes", "dimensions", "variables", "groups"]

mutual

def decode : Json → Decoded FileGroup
  | .object members =>
    if memberNames.any fun name => 1 < countName name members then .error .shape
    else withMembers blank members
  | .array items => withValues blank memberNames items
  | _ => .error .shape

/-- The members of an object, put into a group one after the other. -/
def withMembers (g : FileGroup) : List (String × Json) → Decoded FileGroup
  | [] => .ok g
  | (name, value) :: rest => do withMembers (← withMember g name value) rest

/-- The members of an array, put into a group under the given names. -/
def withValues (g : FileGroup) (names : List String) : List Json → Decoded FileGroup
  | [] => .ok g
  | value :: rest =>
    match names with
    | [] => .error .shape
    | name :: names => do withValues (← withMember g name value) names rest

def withMember (g : FileGroup) (name : String) (value : Json) : Decoded FileGroup :=
  match name with
  | "name" => (decodeText value).map fun s => { g with name := s }
  | "attributes" => (decodeAttributes value).map fun m => { g with attributes := m }
  | "dimensions" =>
    (decodeList FileDimension.decode value).map fun ds => { g with dimensions := ds }
  | "variables" =>
    (decodeList FileVariable.decode value).map fun vs => { g with vars := vs }
  | "groups" => (decodeGroups value).map fun gs => { g with groups := gs }
  | _ => .ok g

def decodeGroups : Json → Decoded (List FileGroup)
  | .array items => decodeAll items
  | _ => .error .shape

def decodeAll : List Json → Decoded (List FileGroup)
  | [] => .ok []
  | item :: rest => do return (← decode item) :: (← decodeAll rest)

end

end FileGroup

end ProductSpec
