/-
  Checking one block of attributes against its constraints.
-/
import ProductSpec.DataFile.Basic
import ProductSpec.Attribute.Literal
import ProductSpec.Validation.Basic

namespace ProductSpec

/-- The type that a placeholder asks for. -/
def Placeholder.typeLabel (p : Placeholder) : String :=
  if p.isArray then "Array[" ++ p.baseType.token ++ "]" else p.baseType.token

namespace AttributeConstraint

/-- The check of a value that is there. -/
def checkValue (c : AttributeConstraint) (o : ValidationOptions) (path : NodePath)
    (value : AttributeValue) : Entry :=
  match c.kind with
  | .literal l =>
    if l.matches value then .pass path
    else o.finding .valueMismatch path
      ("value mismatch: expected " ++ l.display ++ ", got " ++ value.display) c.describe
  | .placeholder p =>
    if value.conformsTo p then .pass path
    else o.finding .typeMismatch path
      ("type mismatch: expected " ++ p.typeLabel ++ ", got " ++ value.typeLabel) c.describe

/-- The check of one attribute, which may be absent. -/
def check (c : AttributeConstraint) (o : ValidationOptions) (path : NodePath)
    (actual : NameMap AttributeValue) : List Entry :=
  match actual.get? c.name with
  | some value => [c.checkValue o (path.child "attributes" c.name) value]
  | none =>
    if c.isRequired then
      [o.finding .missing (path.child "attributes" c.name) "field required" c.describe]
    else []

end AttributeConstraint

/-- The checks of a block of attributes: its constraints in order, then what they do not name. -/
def checkAttributes (o : ValidationOptions) (path : NodePath)
    (constraints : List AttributeConstraint) (actual : NameMap AttributeValue) : List Entry :=
  constraints.flatMap (fun c => c.check o path actual) ++
    o.unknown path "attributes" actual.names (constraints.map AttributeConstraint.name)

end ProductSpec
