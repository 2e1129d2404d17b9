/-
  Two layers of attributes as one. The defaults come first, in their own order; an entry of the
  product with the same name takes the place of the default, and its other entries follow. An
  attribute whose value is null is left out.
-/
import ProductSpec.Definition.Document
import ProductSpec.Definition.Violation

namespace ProductSpec

open Yaml

namespace AttributeLayer

/-- An attribute name is a text that is not empty. -/
def name? : Value → Option String
  | .text s => if s = "" then none else some s
  | _ => none

/-- The entries under their names; the first key that is no name is the error. -/
def named (path : NodePath) : List (Value × Value) → Except Violation (List (String × Value))
  | [] => .ok []
  | (k, v) :: rest =>
    match name? k with
    | some name => (named path rest).map ((name, v) :: ·)
    | none => .error ⟨path ++ ["attributes"], .attributeName k⟩

/-- Puts an entry in the place of the one with its name, or at the end. -/
def override (name : String) (value : Value) : List (String × Value) → List (String × Value)
  | [] => [(name, value)]
  | (other, kept) :: rest =>
    if other = name then (name, value) :: rest else (other, kept) :: override name value rest

/-- A null with a tag of the document's own is null as well. -/
def isNull : Value → Bool
  | .null => true
  | .tagged _ v => isNull v
  | _ => false

/-- The merged attributes. -/
def merge (path : NodePath) (defaults product : AttributeLayer) :
    Except Violation (List (String × Value)) := do
  let first ← named path defaults.entries
  let second ← named path product.entries
  let merged := second.foldl (fun done e => override e.1 e.2 done) first
  return merged.filter fun e => !isNull e.2

end AttributeLayer

end ProductSpec
