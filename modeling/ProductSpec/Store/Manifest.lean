/-
  Manifests: what a version directory says about itself.
-/
import ProductSpec.Json.Decode
import ProductSpec.Json.Reader
import ProductSpec.Timestamp
import ProductSpec.Version.Tag

namespace ProductSpec

open Json

/-- The file of a product, and what was in it when it was released. -/
structure ProductEntry where
  file : String
  checksum : String
  nodeCount : UInt64
deriving DecidableEq, Repr, Inhabited

structure Manifest where
  tag : String
  version : Version
  createdAt : Timestamp
  products : NameMap ProductEntry
  jsonSchema : String
deriving DecidableEq, Inhabited

namespace ProductEntry

def toJson (e : ProductEntry) : Json :=
  .object [("file", .text e.file), ("checksum", .text e.checksum),
    ("node_count", .ofNat e.nodeCount.toNat)]

def decode (j : Json) : Decoded ProductEntry := do
  let r ← record ["file", "checksum", "node_count"] j
  let file ← r.required "file" decodeText
  let checksum ← r.required "checksum" decodeText
  let nodeCount ← r.required "node_count" decodeWord
  r.finish
  return ⟨file, checksum, nodeCount⟩

end ProductEntry

/-- A text that another type is read out of. -/
def decodeWith {α : Type} (read? : String → Option α) (j : Json) : Decoded α := do
  match read? (← decodeText j) with
  | some value => return value
  | none => throw .shape

/-- An object by the names of its members; of two with one name the later one counts. -/
def decodeMap {α : Type} (decode : Json → Decoded α) : Json → Decoded (NameMap α)
  | .object members => do
    return .ofList (← members.mapM fun (name, value) => do return (name, ← decode value))
  | _ => .error .shape

namespace Manifest

def toJson (m : Manifest) : Json :=
  .object [("tag", .text m.tag), ("version", .text m.version.text),
    ("created_at", .text m.createdAt.text), ("products", ofMap ProductEntry.toJson m.products),
    ("json_schema", .text m.jsonSchema)]

def decode (j : Json) : Decoded Manifest := do
  let r ← record ["tag", "version", "created_at", "products", "json_schema"] j
  let tag ← r.required "tag" decodeText
  let version ← r.required "version" (decodeWith Version.read?)
  let createdAt ← r.required "created_at" (decodeWith Timestamp.read?)
  let products ← r.required "products" (decodeMap ProductEntry.decode)
  let jsonSchema ← r.required "json_schema" decodeText
  r.finish
  return ⟨tag, version, createdAt, products, jsonSchema⟩

/-- The order in which releases are listed. -/
def order (a b : Manifest) : Ordering :=
  (compare a.version b.version).then (compare a.tag b.tag)

end Manifest

/-- A value of a type read out of a document's text. -/
def decodeDocument {α : Type} (decode : Json → Decoded α) (text : String) : Option α :=
  match Json.read? text with
  | some j => (decode j).toOption
  | none => none

end ProductSpec
