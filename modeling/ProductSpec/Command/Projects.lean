/-
  The projects and definitions that commands work with.
-/
import ProductSpec.Configuration.Load
import ProductSpec.DataFile.Basic
import ProductSpec.Registry.Basic
import ProductSpec.Store.Load

namespace ProductSpec.Command

open FileAction

def openProject (c : Configuration) (path : Option FilePath) : FileAction Project :=
  let path := path.getD c.project.path
  (Project.load path c.project.defaultsFile c.project.definitionsDir).inContext
    ("opening project " ++ path.text)

def openProjects (c : Configuration) : List FilePath → FileAction (List Project)
  | [] => return []
  | path :: rest => do
    let project ← openProject c (some path)
    return project :: (← openProjects c rest)

/-- A definition, or a product as it was released. -/
def loadDefinition (path : FilePath) (project : Project) : FileAction Dataset :=
  (if path.extension? = some "json" then Dataset.load path else project.compileFile path).inContext
    ("loading definition " ++ path.text)

def openRegistered : List RegisteredProject → FileAction (List Project)
  | [] => return []
  | p :: rest => do
    let project ← p.load.inContext ("opening registered project " ++ p.spec.name)
    return project :: (← openRegistered rest)

/-- The conventions that a file follows. -/
def conventionsOf? (file : DataFile) : Option String :=
  match file.attributes.get? "Conventions" with
  | some (.scalar s) => s.asText?
  | _ => none

/-- The registered projects that a file follows. -/
def registeredProjects (e : Environment) (c : Configuration) (file : DataFile) :
    FileAction (List Project) := do
  match conventionsOf? file, c.registryPath? e with
  | some conventions, some path =>
    let registry ← (Registry.load path).inContext ("reading " ++ path.text)
    openRegistered (registry.matching conventions)
  | _, _ => return []

/-- The projects that a file is checked against: those that are named, else those that it follows,
else the one of the configuration. -/
def checkProjects (e : Environment) (c : Configuration) (named : List FilePath) (file : DataFile) :
    FileAction (List Project) := do
  if !named.isEmpty then openProjects c named
  else
    let projects ← registeredProjects e c file
    if !projects.isEmpty then return projects
    else return [← openProject c none]

end ProductSpec.Command
