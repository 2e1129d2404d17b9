/-
  Comparing two datasets part by part. Parts of one kind are matched by their names: what is only
  in the old dataset was removed, what is only in the new one was added, and the others are
  compared in the order of the old dataset.
-/
import ProductSpec.Comparison.Change

namespace ProductSpec

namespace AttributeConstraint

def changed (kind : ChangeKind) (path : NodePath) (old new : AttributeConstraint)
    (description : String) : List Change :=
  [⟨kind, path, some old.describe, some new.describe, true, description⟩]

/-- The change of a constraint that is in both datasets, if any. -/
def changes (path : NodePath) (old new : AttributeConstraint) : List Change :=
  match old.kind, new.kind with
  | .literal a, .literal b =>
    if a != b then changed .valueChanged path old new "Literal value changed" else []
  | .placeholder a, .placeholder b =>
    if a.baseType != b.baseType || a.isArray != b.isArray then
      changed .typeChanged path old new "Placeholder type changed"
    else if a.required != b.required then
      changed .optionalityChanged path old new
        (if b.required then "Became required" else "Became optional")
    else []
  | _, _ => changed .valueChanged path old new "Changed between literal and placeholder"

def removed (path : NodePath) (old : AttributeConstraint) : Change :=
  ⟨.attributeRemoved, path, some old.describe, none, old.isRequired, "Attribute removed"⟩

def added (path : NodePath) (new : AttributeConstraint) : Change :=
  ⟨.attributeAdded, path, none, some new.describe, new.isRequired, "Attribute added"⟩

end AttributeConstraint

/-- The changes of a block of attributes. -/
def attributeChanges (path : NodePath) (old new : List AttributeConstraint) : List Change :=
  old.flatMap (fun o =>
    let here := path.child "attributes" o.name
    match new.find? fun n => n.name == o.name with
    | some n => o.changes here n
    | none => [o.removed here]) ++
  (new.filter fun n => !old.any fun o => o.name == n.name).map fun n =>
    n.added (path.child "attributes" n.name)

namespace NodeInfo

/-- The changes of what is known about a node, its names apart. -/
def changes (path : NodePath) (old new : NodeInfo) : List Change :=
  (if old.required != new.required then
    [⟨.optionalityChanged, path, some (toString old.required), some (toString new.required), true,
      if new.required then "Became required" else "Became optional"⟩]
  else []) ++
  (if old.description != new.description then
    [⟨.documentationChanged, path, old.description, new.description, false,
      "Description changed"⟩]
  else [])

end NodeInfo

/-- The kinds of nodes in a group: what their place in a path is called, and one of them. -/
structure NodeKind where
  place : String
  one : String

namespace NodeKind

def dimensions : NodeKind := ⟨"dimensions", "dimension"⟩

def vars : NodeKind := ⟨"variables", "variable"⟩

def groups : NodeKind := ⟨"groups", "group"⟩

/-- The nodes that were removed, then those that were added. Each is given by its name and
whether it is required. -/
def addedRemoved (k : NodeKind) (path : NodePath) (old new : List (String × Bool)) :
    List Change :=
  (old.filter fun o => !new.any fun n => n.1 == o.1).map (fun (name, required) =>
    ⟨.nodeRemoved, path.child k.place name, some name, none, required, "Removed " ++ k.one⟩) ++
  (new.filter fun n => !old.any fun o => o.1 == n.1).map fun (name, required) =>
    ⟨.nodeAdded, path.child k.place name, none, some name, required,
      "Added " ++ (if required then "required " else "optional ") ++ k.one⟩

end NodeKind

namespace Dimension

/-- The name of a dimension and whether it is required. -/
def heading (d : Dimension) : String × Bool := (d.name, d.info.required)

def changes (path : NodePath) (old new : Dimension) : List Change :=
  (if old.size != new.size then
    [⟨.sizeChanged, path, some old.size.text, some new.size.text, true,
      "Dimension size changed"⟩]
  else []) ++ old.info.changes path new.info

def changesAll (path : NodePath) (old new : List Dimension) : List Change :=
  NodeKind.dimensions.addedRemoved path (old.map heading) (new.map heading) ++
    old.flatMap fun o =>
      match new.find? fun n => n.name == o.name with
      | some n => o.changes (path.child "dimensions" o.name) n
      | none => []

end Dimension

namespace Variable

/-- The name of a variable and whether it is required. -/
def heading (v : Variable) : String × Bool := (v.name, v.info.required)

def changes (path : NodePath) (old new : Variable) : List Change :=
  (if old.dataType != new.dataType then
    [⟨.typeChanged, path, some old.dataType.token, some new.dataType.token, true,
      "Data type changed"⟩]
  else []) ++
  (if old.dimensions != new.dimensions then
    [⟨.dimensionsChanged, path ++ ["dimensions"], some (bracketed old.dimensions),
      some (bracketed new.dimensions), true, "Variable dimensions changed"⟩]
  else []) ++
  old.info.changes path new.info ++ attributeChanges path old.attributes new.attributes

def changesAll (path : NodePath) (old new : List Variable) : List Change :=
  NodeKind.vars.addedRemoved path (old.map heading) (new.map heading) ++
    old.flatMap fun o =>
      match new.find? fun n => n.name == o.name with
      | some n => o.changes (path.child "variables" o.name) n
      | none => []

end Variable

namespace Group

/-- The name of a group and whether it is required. -/
def heading (g : Group) : String × Bool := (g.name, g.info.required)

mutual

/-- The changes of what is inside a group. -/
def changes (path : NodePath) (new : Group) : (old : Group) → List Change
  | ⟨_, _, attributes, dimensions, vars, groups⟩ =>
    attributeChanges path attributes new.attributes ++
      Dimension.changesAll path dimensions new.dimensions ++
      Variable.changesAll path vars new.vars ++
      NodeKind.groups.addedRemoved path (groups.map heading) (new.groups.map heading) ++
      changesAll path new.groups groups

/-- The changes of the groups that are in both. -/
def changesAll (path : NodePath) (new : List Group) : (old : List Group) → List Change
  | [] => []
  | o :: rest =>
    let here := path.child "groups" o.name
    (match new.find? fun n => n.name == o.name with
      | some n => o.info.changes here n.info ++ changes here n o
      | none => []) ++
    changesAll path new rest

end

/-- The comparison of an old dataset with a new one. -/
def compare (strict : Bool) (old new : Dataset) : Comparison :=
  .ofChanges strict (old.info.changes NodePath.root new.info ++ changes NodePath.root new old)

end Group

end ProductSpec
