/-
  Compiling a definition over the defaults of a project. The result is a dataset, or the first
  violation: attributes come before dimensions, these before variables and groups, and inside a
  variable its data type comes before its dimensions and its attributes.
-/
import ProductSpec.Definition.Merge

namespace ProductSpec

open Yaml

abbrev Compiled := Except Violation

namespace ConstraintKind

/-- A single value that is no placeholder. -/
def compileScalar : Value → Except DefinitionFault Literal
  | .text s => .ok (.text s)
  | .int n =>
    .ok (if BaseType.int64.Holds n then .int (Int64.ofInt n) else .float (Number.Binary.ofInt n))
  | .float x => .ok (.float x)
  | .bool _ => .error .booleanValue
  | _ => .error .unsupportedValue

def compileItem : Value → Except DefinitionFault Literal
  | .text s => if Placeholder.isShaped s then .error (.placeholderInList s) else .ok (.text s)
  | .sequence _ => .error .nestedList
  | other => compileScalar other

/-- A list holds texts or numbers and not both. -/
def compileList (items : List Value) : Except DefinitionFault Literal := do
  let literals ← items.mapM compileItem
  if literals.any Literal.isText && !literals.all Literal.isText then .error .mixedList
  else .ok (.list literals)

/-- What an attribute value as written asks for. -/
def compile : Value → Except DefinitionFault ConstraintKind
  | .text s =>
    if Placeholder.isShaped s then
      match Placeholder.parse s with
      | .ok p => .ok (placeholder p)
      | .error reason => .error (.malformedPlaceholder s reason)
    else .ok (literal (.text s))
  | .sequence items => (compileList items).map literal
  | other => (compileScalar other).map literal

end ConstraintKind

/-- A fault at a path. -/
def Compiled.at {α : Type} (path : NodePath) : Except DefinitionFault α → Compiled α
  | .ok x => .ok x
  | .error fault => .error ⟨path, fault⟩

/-- The constraints of one block of attributes. -/
def compileAttributes (path : NodePath) (defaults product : AttributeLayer) :
    Compiled (List AttributeConstraint) := do
  (← AttributeLayer.merge path defaults product).mapM fun (name, value) => do
    return ⟨name, ← Compiled.at (path ++ ["attributes", name]) (ConstraintKind.compile value)⟩

/-- The name of a child is not empty and not that of an earlier one of its kind. -/
def checkName (path : NodePath) (kind : String) (earlier : List String) (name : String) :
    Compiled Unit :=
  if name = "" then .error ⟨path ++ [kind], .emptyName⟩
  else if name ∈ earlier then .error ⟨path.child kind name, .duplicateName name⟩
  else .ok ()

namespace DimensionEntry

def compile (d : DimensionEntry) : Dimension :=
  ⟨d.name, .ofOption d.size, ⟨d.description, d.required, none, none, none⟩⟩

def compileAll (path : NodePath) : (earlier : List String) → List DimensionEntry →
    Compiled (List Dimension)
  | _, [] => .ok []
  | earlier, d :: rest => do
    checkName path "dimensions" earlier d.name
    return d.compile :: (← compileAll path (d.name :: earlier) rest)

end DimensionEntry

namespace VariableEntry

/-- A variable at its own path. `scope` holds the dimensions of the groups around it. -/
def compile (defaults : Defaults) (scope : List String) (path : NodePath) (v : VariableEntry) :
    Compiled Variable := do
  let dataType ← match BaseType.parse v.dataType with
    | .ok t => .ok t
    | .error reason => .error ⟨path, .dataType reason⟩
  match v.dimensions.find? (· ∉ scope) with
  | some d => .error ⟨path.child "dimensions" d, .undeclaredDimension d⟩
  | none =>
    let attributes ← compileAttributes path defaults.variableAttributes v.attributes
    return ⟨v.name, dataType, v.dimensions, attributes,
      ⟨v.description, v.required, none, none, none⟩⟩

def compileAll (defaults : Defaults) (scope : List String) (path : NodePath) :
    (earlier : List String) → List VariableEntry → Compiled (List Variable)
  | _, [] => .ok []
  | earlier, v :: rest => do
    checkName path "variables" earlier v.name
    let variable_ ← v.compile defaults scope (path.child "variables" v.name)
    return variable_ :: (← compileAll defaults scope path (v.name :: earlier) rest)

end VariableEntry

namespace Section

mutual

/-- The contents of the root or of a group under a name. `layer` holds the defaults for its
attributes and `scope` the dimensions of the groups around it. -/
def compile (defaults : Defaults) (layer : AttributeLayer) (scope : List String)
    (path : NodePath) (name : String) (info : NodeInfo) : Section → Compiled Group
  | ⟨attributes, dimensions, vars, groups⟩ => do
    let attributes ← compileAttributes path layer attributes
    let dimensions ← DimensionEntry.compileAll path [] dimensions
    let scope := dimensions.map Dimension.name ++ scope
    let vars ← VariableEntry.compileAll defaults scope path [] vars
    let groups ← compileGroups defaults scope path [] groups
    return ⟨name, info, attributes, dimensions, vars, groups⟩

def compileGroups (defaults : Defaults) (scope : List String) (path : NodePath)
    (earlier : List String) : List (GroupHeading × Section) → Compiled (List Group)
  | [] => .ok []
  | (h, contents) :: rest => do
    checkName path "groups" earlier h.name
    let group ← contents.compile defaults defaults.groupAttributes scope
      (path.child "groups" h.name) h.name ⟨h.description, h.required, none, none, none⟩
    return group :: (← compileGroups defaults scope path (h.name :: earlier) rest)

end

end Section

namespace Definition

/-- The dataset of a definition under a given name. -/
def compileNamed (name : String) (d : Definition) (defaults : Defaults) : Compiled Dataset :=
  d.body.compile defaults defaults.globalAttributes [] NodePath.root name
    ⟨d.description, true, d.shortName, d.filePattern, d.canonicalName⟩

/-- The dataset of a definition under its short name; without one it is called `dataset`. -/
def compile (d : Definition) (defaults : Defaults) : Compiled Dataset :=
  d.compileNamed (d.shortName.getD "dataset") defaults

end Definition

namespace Defaults

/-- The standard of a project: its defaults without any definition. -/
def standard (name : String) (defaults : Defaults) : Compiled Dataset :=
  Definition.empty.compileNamed name defaults

end Defaults

end ProductSpec
