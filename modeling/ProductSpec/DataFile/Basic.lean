/-
  The contents of a product file: the same tree as a dataset, with values in the place of
  constraints. A file is its root group.
-/
import ProductSpec.Attribute.Value
import ProductSpec.NameMap

namespace ProductSpec

structure FileDimension where
  name : String
  size : UInt64
  unlimited : Bool
deriving DecidableEq, Repr, Inhabited

structure FileVariable where
  name : String
  dataType : BaseType
  /-- The names of its dimensions, outermost first. -/
  dimensions : List String
  attributes : NameMap AttributeValue
deriving DecidableEq, Inhabited

/-- A group of a file and everything in it. -/
structure FileGroup where
  name : String
  attributes : NameMap AttributeValue
  dimensions : List FileDimension
  vars : List FileVariable
  groups : List FileGroup
deriving Inhabited

/-- A file is its root group. -/
abbrev DataFile := FileGroup

namespace FileGroup

/-- A group without a name and without contents. -/
def blank : FileGroup := ⟨"", ∅, [], [], []⟩

mutual

/-- Equality of values. -/
def equals : FileGroup → FileGroup → Bool
  | ⟨name, attributes, dimensions, vars, groups⟩,
    ⟨name', attributes', dimensions', vars', groups'⟩ =>
    name == name' && attributes == attributes' && dimensions == dimensions' &&
      vars == vars' && equalLists groups groups'

def equalLists : List FileGroup → List FileGroup → Bool
  | [], [] => true
  | g :: gs, h :: hs => equals g h && equalLists gs hs
  | _, _ => false

end

instance : BEq FileGroup := ⟨equals⟩

/-- Of the parts with one name the first one counts. -/
def dimensionNamed? (g : FileGroup) (name : String) : Option FileDimension :=
  g.dimensions.find? fun d => d.name == name

def variableNamed? (g : FileGroup) (name : String) : Option FileVariable :=
  g.vars.find? fun v => v.name == name

def groupNamed? (g : FileGroup) (name : String) : Option FileGroup :=
  g.groups.find? fun h => h.name == name

/-- What a file without a place of its own is called in a report. -/
def describe (file : DataFile) : String := if file.name = "" then "<memory>" else file.name

end FileGroup

end ProductSpec
