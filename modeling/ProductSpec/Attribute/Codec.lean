/-
  Attributes in documents. A stored value is written with its type beside it; a literal is
  written as it stands, and a constraint under the name of its kind.
-/
import ProductSpec.Attribute.Literal
import ProductSpec.Json.Decode

namespace ProductSpec

open Number Json

namespace BaseType

def toJson (t : BaseType) : Json := .text t.token

def decode : Json → Decoded BaseType := decodeName ofToken?

end BaseType

namespace Scalar

/-- A float is a number or null, which stands for NaN. -/
def double? : Json → Option Double
  | .null => some .nan
  | j => j.asDouble?

/-- The stored value of a kind that a document value stands for, if any. -/
def ofPlain? (t : BaseType) (j : Json) : Option Scalar :=
  match t with
  | .str => j.asText?.map .str
  | .char => j.asText?.map .char
  | .float32 => (double? j).map fun x => .float32 x.narrow
  | .float64 => (double? j).map .float64
  | t => j.asInt64?.bind fun n => if h : t.Holds n then some (.integer t n h) else none

def ofPlain (t : BaseType) (j : Json) : Decoded Scalar :=
  match ofPlain? t j with
  | some s => .ok s
  | none => .error (.notOfType j t)

end Scalar

namespace AttributeValue

def toJson (v : AttributeValue) : Json :=
  .object [("type", v.baseType.toJson), ("value", v.toPlain)]

/-- A stored value of a kind. -/
def ofPlain (t : BaseType) : Json → Decoded AttributeValue
  | .array items => (items.mapM (Scalar.ofPlain t)).map (array t)
  | other => (Scalar.ofPlain t other).map scalar

def decode (j : Json) : Decoded AttributeValue := do
  let r ← record ["type", "value"] j
  let type ← r.required "type" BaseType.decode
  let plain ← r.required "value" .ok
  r.finish
  ofPlain type plain

end AttributeValue

namespace Placeholder

def toJson (p : Placeholder) : Json :=
  .object [("base_type", p.baseType.toJson), ("is_array", .bool p.isArray),
    ("required", .bool p.required), ("derived_from_file", .bool p.derivedFromFile)]

def decode (j : Json) : Decoded Placeholder := do
  let r ← record ["base_type", "is_array", "required", "derived_from_file"] j
  let baseType ← r.required "base_type" BaseType.decode
  let isArray ← r.required "is_array" decodeBool
  let required ← r.required "required" decodeBool
  let derivedFromFile ← r.required "derived_from_file" decodeBool
  r.finish
  return ⟨baseType, isArray, required, derivedFromFile⟩

end Placeholder

namespace Literal

mutual

def toJson : Literal → Json
  | int n => .int n.toInt
  | float x => .ofDouble x
  | text s => .text s
  | list items => .array (toJsons items)

def toJsons : List Literal → List Json
  | [] => []
  | item :: rest => toJson item :: toJsons rest

end

/-- An integer literal has 64 bits; a greater one is a float. -/
def ofInt (n : Int) : Literal :=
  if BaseType.int64.Holds n then int (Int64.ofInt n) else float (Binary.ofInt n)

mutual

def decode : Json → Decoded Literal
  | .int n => .ok (ofInt n)
  | .float x => .ok (float x)
  | .text s => .ok (text s)
  | .array items => (decodeAll items).map list
  | _ => .error .shape

def decodeAll : List Json → Decoded (List Literal)
  | [] => .ok []
  | item :: rest => do return (← decode item) :: (← decodeAll rest)

end

end Literal

namespace ConstraintKind

def toJson : ConstraintKind → Json
  | literal l => .object [("literal", l.toJson)]
  | placeholder p => .object [("placeholder", p.toJson)]

def decode (j : Json) : Decoded ConstraintKind := do
  match ← decodeOnly j with
  | ("literal", value) => (Literal.decode value).map literal
  | ("placeholder", value) => (Placeholder.decode value).map placeholder
  | _ => .error .shape

end ConstraintKind

namespace AttributeConstraint

def toJson (c : AttributeConstraint) : Json :=
  .object [("name", .text c.name), ("kind", c.kind.toJson)]

def decode (j : Json) : Decoded AttributeConstraint := do
  let r ← record ["name", "kind"] j
  let name ← r.required "name" decodeText
  let kind ← r.required "kind" ConstraintKind.decode
  r.finish
  return ⟨name, kind⟩

end AttributeConstraint

end ProductSpec
