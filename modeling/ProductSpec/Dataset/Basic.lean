/-
  Datasets: compiled product definitions. A dataset is its root group; groups hold attributes,
  dimensions, variables and further groups, and variables name their dimensions.
-/
import ProductSpec.Attribute.Literal

namespace ProductSpec

/-- The way from the root to a node or to a part of one. -/
abbrev NodePath := List String

namespace NodePath

def root : NodePath := ["root"]

def text (p : NodePath) : String := Text.join " -> " p

/-- The path of the child of a kind with a name. -/
def child (p : NodePath) (kind name : String) : NodePath := p ++ [kind, name]

end NodePath

/-- What a dimension is declared to hold. -/
inductive DimensionSize
  | fixed (n : UInt64)
  | unlimited
deriving DecidableEq, Repr, Inhabited

namespace DimensionSize

def ofOption : Option UInt64 → DimensionSize
  | some n => fixed n
  | none => unlimited

/-- Whether a size in a file satisfies the declaration. -/
def accepts : DimensionSize → UInt64 → Bool
  | fixed n, actual => n == actual
  | unlimited, _ => true

def text : DimensionSize → String
  | fixed n => toString n
  | unlimited => "unlimited"

end DimensionSize

/-- What is known about any node beside its contents. The last three are for datasets. -/
structure NodeInfo where
  description : Option String
  required : Bool
  shortName : Option String
  filePattern : Option String
  canonicalName : Option String
deriving DecidableEq, Repr, Inhabited

namespace NodeInfo

/-- A required node without a description. -/
def plain : NodeInfo := ⟨none, true, none, none, none⟩

end NodeInfo

structure Dimension where
  name : String
  size : DimensionSize
  info : NodeInfo
deriving DecidableEq, Repr, Inhabited

structure Variable where
  name : String
  dataType : BaseType
  /-- The names of its dimensions, outermost first. -/
  dimensions : List String
  attributes : List AttributeConstraint
  info : NodeInfo
deriving Repr, Inhabited

/-- A group and everything in it. -/
structure Group where
  name : String
  info : NodeInfo
  attributes : List AttributeConstraint
  dimensions : List Dimension
  vars : List Variable
  groups : List Group
deriving Repr, Inhabited

/-- A dataset is its root group. -/
abbrev Dataset := Group

namespace Variable

/-- Equality of values. -/
def equals (v w : Variable) : Bool :=
  v.name == w.name && v.dataType == w.dataType && v.dimensions == w.dimensions &&
    v.attributes == w.attributes && v.info == w.info

instance : BEq Variable := ⟨equals⟩

end Variable

namespace Group

mutual

/-- Equality of values. -/
def equals (g h : Group) : Bool :=
  match g, h with
  | ⟨name, info, attributes, dimensions, vars, groups⟩,
    ⟨name', info', attributes', dimensions', vars', groups'⟩ =>
    name == name' && info == info' && attributes == attributes' &&
      dimensions == dimensions' && vars == vars' && equalLists groups groups'

def equalLists : List Group → List Group → Bool
  | [], [] => true
  | g :: gs, h :: hs => equals g h && equalLists gs hs
  | _, _ => false

end

instance : BEq Group := ⟨equals⟩

/-- The name under which the product of a dataset is released. -/
def productName (d : Dataset) : String := d.info.shortName.getD d.name

end Group

/-- Any node of a dataset. -/
inductive NodeRef
  | dataset (g : Group)
  | group (g : Group)
  | dim (d : Dimension)
  | var (v : Variable)
deriving Repr, Inhabited

namespace NodeRef

def name : NodeRef → String
  | dataset g | group g => g.name
  | dim d => d.name
  | var v => v.name

def kind : NodeRef → String
  | dataset _ => "dataset"
  | group _ => "group"
  | dim _ => "dimension"
  | var _ => "variable"

def info : NodeRef → NodeInfo
  | dataset g | group g => g.info
  | dim d => d.info
  | var v => v.info

def attributes : NodeRef → List AttributeConstraint
  | dataset g | group g => g.attributes
  | dim _ => []
  | var v => v.attributes

end NodeRef

namespace Group

mutual

/-- The nodes inside a group, each with its path: its dimensions, its variables, and each group
followed by what is inside. -/
def inside (path : NodePath) : Group → List (NodePath × NodeRef)
  | ⟨_, _, _, dimensions, vars, groups⟩ =>
    dimensions.map (fun d => (path.child "dimensions" d.name, NodeRef.dim d)) ++
      vars.map (fun v => (path.child "variables" v.name, NodeRef.var v)) ++
      insideAll path groups

def insideAll (path : NodePath) : List Group → List (NodePath × NodeRef)
  | [] => []
  | g :: rest =>
    let here := path.child "groups" g.name
    (here, NodeRef.group g) :: inside here g ++ insideAll path rest

end

/-- Every node of a dataset with its path, parents before children. -/
def walk (d : Dataset) : List (NodePath × NodeRef) :=
  (NodePath.root, NodeRef.dataset d) :: d.inside NodePath.root

def nodeCount (d : Dataset) : Nat := d.walk.length

end Group

end ProductSpec
