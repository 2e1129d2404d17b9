/-
  Example files: the least that satisfies a dataset. Fixed values are copied, and a placeholder
  gets a sample of its type.
-/
import ProductSpec.Attribute.Literal
import ProductSpec.DataFile.Basic
import ProductSpec.Dataset.Basic

namespace ProductSpec

namespace AttributeConstraint

/-- A value that satisfies the constraint, if any does. -/
def exampleValue (c : AttributeConstraint) : AttributeValue :=
  match c.kind with
  | .literal l => l.toValue
  | .placeholder p =>
    if p.isArray then .array p.baseType [Scalar.sample p.baseType]
    else .scalar (Scalar.sample p.baseType)

end AttributeConstraint

def exampleAttributes (constraints : List AttributeConstraint) : NameMap AttributeValue :=
  .ofList (constraints.map fun c => (c.name, c.exampleValue))

/-- An unlimited dimension gets the given length, a number of 64 bits. -/
def Dimension.exampleDimension (unlimitedLength : Nat) (d : Dimension) : FileDimension :=
  match d.size with
  | .fixed n => ⟨d.name, n, false⟩
  | .unlimited => ⟨d.name, .ofNat unlimitedLength, true⟩

def Variable.exampleVariable (v : Variable) : FileVariable :=
  ⟨v.name, v.dataType, v.dimensions, exampleAttributes v.attributes⟩

namespace Group

mutual

def exampleGroup (unlimitedLength : Nat) : Group → FileGroup
  | ⟨name, _, attributes, dimensions, vars, groups⟩ =>
    ⟨name, exampleAttributes attributes,
      dimensions.map (Dimension.exampleDimension unlimitedLength),
      vars.map Variable.exampleVariable, exampleGroups unlimitedLength groups⟩

def exampleGroups (unlimitedLength : Nat) : List Group → List FileGroup
  | [] => []
  | g :: rest => exampleGroup unlimitedLength g :: exampleGroups unlimitedLength rest

end

/-- An example of a file for a dataset, named like its product. -/
def exampleFile (unlimitedLength : Nat) (d : Dataset) : DataFile :=
  { exampleGroup unlimitedLength d with name := d.productName }

end Group

end ProductSpec
