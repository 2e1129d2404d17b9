/-
  Definitions as they are written, and the defaults of a project. Nothing is checked here beyond
  the form of the document.
-/
import ProductSpec.Yaml.Decode

namespace ProductSpec

open Yaml

/-- Attributes as written: a mapping with any keys and values, each key once. -/
abbrev AttributeLayer := Mapping

structure DimensionEntry where
  name : String
  /-- Without a size the dimension is unlimited. -/
  size : Option UInt64
  required : Bool
  description : Option String
deriving DecidableEq, Repr, Inhabited

structure VariableEntry where
  name : String
  dataType : String
  required : Bool
  description : Option String
  dimensions : List String
  attributes : AttributeLayer
deriving Inhabited

structure GroupHeading where
  name : String
  required : Bool
  description : Option String
deriving DecidableEq, Repr, Inhabited

/-- What a definition says about the contents of the root or of a group. -/
structure Section where
  attributes : AttributeLayer
  dimensions : List DimensionEntry
  vars : List VariableEntry
  groups : List (GroupHeading × Section)
deriving Inhabited

namespace Section

def empty : Section := ⟨.empty, [], [], []⟩

end Section

/-- A product definition. -/
structure Definition where
  shortName : Option String
  filePattern : Option String
  description : Option String
  canonicalName : Option String
  body : Section
deriving Inhabited

namespace Definition

/-- A definition that says nothing. -/
def empty : Definition := ⟨none, none, none, none, .empty⟩

end Definition

/-- The default attributes of a project, which come before those of every definition. -/
structure Defaults where
  /-- The conventions that the project stands for. -/
  conventions : Option String
  globalAttributes : AttributeLayer
  groupAttributes : AttributeLayer
  variableAttributes : AttributeLayer
deriving Inhabited

namespace Defaults

def empty : Defaults := ⟨none, .empty, .empty, .empty⟩

def ofNode? (n : Node) : Option Defaults := do
  let members ← n.members?
    ["conventions", "global_attributes", "group_attributes", "variable_attributes"]
  return {
    conventions := ← optionalMember? members "conventions" Node.text?
    globalAttributes := ← withDefault? members "global_attributes" .empty Node.mapping?
    groupAttributes := ← withDefault? members "group_attributes" .empty Node.mapping?
    variableAttributes := ← withDefault? members "variable_attributes" .empty Node.mapping? }

/-- Reads the defaults of a project. -/
def read? (text : String) : Option Defaults := do ofNode? (← Node.read? text)

end Defaults

namespace DimensionEntry

def ofNode? (n : Node) : Option DimensionEntry := do
  let members ← n.members? ["name", "size", "required", "description"]
  return {
    name := ← required? members "name" Node.text?
    size := ← optionalMember? members "size" Node.word?
    required := ← withDefault? members "required" true Node.truth?
    description := ← optionalMember? members "description" Node.text? }

end DimensionEntry

namespace VariableEntry

def ofNode? (n : Node) : Option VariableEntry := do
  let members ← n.members? ["meta", "dimensions", "attributes"]
  let heading ← required? members "meta"
    (Node.members? ["name", "datatype", "required", "description"])
  return {
    name := ← required? heading "name" Node.text?
    dataType := ← required? heading "datatype" Node.text?
    required := ← withDefault? heading "required" true Node.truth?
    description := ← optionalMember? heading "description" Node.text?
    dimensions := ← withDefault? members "dimensions" [] (Node.list? Node.text?)
    attributes := ← withDefault? members "attributes" .empty Node.mapping? }

end VariableEntry

namespace GroupHeading

def ofNode? (n : Node) : Option GroupHeading := do
  let members ← n.members? ["name", "required", "description"]
  return {
    name := ← required? members "name" Node.text?
    required := ← withDefault? members "required" true Node.truth?
    description := ← optionalMember? members "description" Node.text? }

end GroupHeading

namespace Section

def memberNames : List String := ["meta", "attributes", "dimensions", "variables", "groups"]

mutual

/-- The contents that the node of a definition or of a group gives. -/
def ofNode? (n : Node) : Option Section := do
  let members ← n.members? memberNames
  let groups ← match n with
    | .mapping _ entries => groupsOfEntries? entries
    | _ => some []
  return {
    attributes := ← withDefault? members "attributes" .empty Node.mapping?
    dimensions := ← withDefault? members "dimensions" [] (Node.list? DimensionEntry.ofNode?)
    vars := ← withDefault? members "variables" [] (Node.list? VariableEntry.ofNode?)
    groups := groups }

def groupsOfEntries? : List (Node × Node) → Option (List (GroupHeading × Section))
  | [] => some []
  | (k, v) :: rest =>
    if k.text? = some "groups" then groupsOfNode? v else groupsOfEntries? rest

def groupsOfNode? (n : Node) : Option (List (GroupHeading × Section)) :=
  match n with
  | .sequence _ items => groupsOfItems? items
  | n => if n.isEmpty then some [] else none

def groupsOfItems? : List Node → Option (List (GroupHeading × Section))
  | [] => some []
  | item :: rest => do
    let members ← item.members? memberNames
    let heading ← required? members "meta" GroupHeading.ofNode?
    let contents ← ofNode? item
    return (heading, contents) :: (← groupsOfItems? rest)

end

end Section

namespace Definition

def ofNode? (n : Node) : Option Definition := do
  let members ← n.members? Section.memberNames
  let heading ← withDefault? members "meta" []
    (Node.members? ["short_name", "file_pattern", "description", "canonical_name"])
  return {
    shortName := ← optionalMember? heading "short_name" Node.text?
    filePattern := ← optionalMember? heading "file_pattern" Node.text?
    description := ← optionalMember? heading "description" Node.text?
    canonicalName := ← optionalMember? heading "canonical_name" Node.text?
    body := ← Section.ofNode? n }

/-- Reads a definition. -/
def read? (text : String) : Option Definition := do ofNode? (← Node.read? text)

end Definition

end ProductSpec
