/-
  Changes between two definitions of a product, and the version bump they ask for. A change is
  breaking if a file or a reader that worked with the old definition may stop working.
-/
import ProductSpec.Dataset.Basic

namespace ProductSpec

/-- How far a version moves. -/
inductive Bump
  | patch
  | minor
  | major
deriving DecidableEq, Repr, Inhabited

def Bump.code : Bump → String
  | patch => "patch"
  | minor => "minor"
  | major => "major"

inductive ChangeKind
  | nodeAdded
  | nodeRemoved
  | attributeAdded
  | attributeRemoved
  /-- The data type of a variable or the type of a placeholder. -/
  | typeChanged
  /-- The fixed value of an attribute. -/
  | valueChanged
  | sizeChanged
  | dimensionsChanged
  | optionalityChanged
  | documentationChanged
deriving DecidableEq, Repr, Inhabited

def ChangeKind.code : ChangeKind → String
  | nodeAdded => "node_added"
  | nodeRemoved => "node_removed"
  | attributeAdded => "attribute_added"
  | attributeRemoved => "attribute_removed"
  | typeChanged => "type_changed"
  | valueChanged => "value_changed"
  | sizeChanged => "size_changed"
  | dimensionsChanged => "dimensions_changed"
  | optionalityChanged => "optionality_changed"
  | documentationChanged => "documentation_changed"

structure Change where
  kind : ChangeKind
  path : NodePath
  old : Option String
  new : Option String
  isBreaking : Bool
  description : String
deriving DecidableEq, Repr, Inhabited

/-- What a comparison found. -/
structure Comparison where
  isCompatible : Bool
  changes : List Change
  summary : String
deriving DecidableEq, Repr, Inhabited

namespace Comparison

def breaking (c : Comparison) : List Change := c.changes.filter Change.isBreaking

/-- The smallest bump that describes the changes. -/
def requiredBump (c : Comparison) : Bump :=
  if !c.isCompatible then .major
  else if c.changes.any fun change => change.kind != .documentationChanged then .minor
  else .patch

/-- The comparison with given changes. In strict mode any change is one too many. -/
def ofChanges (strict : Bool) (changes : List Change) : Comparison :=
  let count := toString (changes.countP Change.isBreaking)
  if strict && !changes.isEmpty then
    ⟨false, changes, "Strict mode: " ++ count ++ " changes detected"⟩
  else if changes.any Change.isBreaking then
    ⟨false, changes, count ++ " breaking changes detected"⟩
  else if changes.isEmpty then ⟨true, [], "No changes detected"⟩
  else ⟨true, changes, toString changes.length ++ " compatible changes detected"⟩

def productRemoved (name : String) : Comparison :=
  ⟨false, [], "Product '" ++ name ++ "' was removed"⟩

def productAdded (name : String) : Comparison :=
  ⟨true, [], "Product '" ++ name ++ "' was added"⟩

end Comparison

end ProductSpec
