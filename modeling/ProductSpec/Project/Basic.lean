/-
  Projects: a directory with the defaults of all definitions and a directory of definitions.
-/
import ProductSpec.DataFile.Basic
import ProductSpec.Definition.Compile
import ProductSpec.Fault
import ProductSpec.Project.FilePattern

namespace ProductSpec

open FileAction

structure Project where
  root : FilePath
  definitionsDir : FilePath
  defaults : Defaults
deriving Inhabited

namespace Definition

def load (path : FilePath) : FileAction Definition := do
  ofOption .yaml (read? (← readText path))

end Definition

/-- A compiled dataset or why there is none. -/
def Compiled.toAction {α : Type} (c : Compiled α) : FileAction α :=
  FileAction.ofExcept (c.mapError .definition)

namespace Project

def defaultsName : FilePath := "defaults.yaml"

def definitionsName : FilePath := "definitions"

/-- Opens a project. Without a file of defaults it has none. -/
def load (root defaultsFile definitionsDir : FilePath) : FileAction Project := do
  if !(← isDirectory root) then throw (.notFound ("project directory " ++ root.text) "-")
  let path := root.join defaultsFile
  let defaults ← if ← isFile path then ofOption .yaml (Defaults.read? (← readText path))
    else pure .empty
  return ⟨root, root.join definitionsDir, defaults⟩

/-- What a project is called: by its conventions, else like its directory. -/
def name (p : Project) : FileAction String := do
  match p.defaults.conventions with
  | some conventions => return conventions
  | none =>
    let root ← ofProgram (.perform (.canonical p.root))
    return (root.toOption.bind FilePath.name?).getD "project"

def isDefinitionName (name : String) : Bool :=
  let extension := (FilePath.ofText name).extension?
  extension == some "yaml" || extension == some "yml"

/-- The definitions among the entries of a directory, in the order of their names. -/
def definitionsAmong (directory : FilePath) (entries : List (String × FileKind)) : List FilePath :=
  let names := entries.filterMap fun (name, kind) =>
    if kind = .file ∧ isDefinitionName name then some name else none
  (names.mergeSort fun a b => decide (a ≤ b)).map fun name => directory.join (FilePath.ofText name)

/-- The files of the definitions. -/
def definitions (p : Project) : FileAction (List FilePath) := do
  match ← ofProgram (.perform (.list p.definitionsDir)) with
  | .ok entries => return definitionsAmong p.definitionsDir entries
  | .error _ => return []

/-- Whether a definition can be read and is for files of such a name. -/
def isFor (path : FilePath) (name : String) : FileAction Bool := ofProgram do
  match ← (Definition.load path).run with
  | .ok d => return d.filePattern.any fun pattern => matchesFilePattern pattern name
  | .error _ => return false

def firstFor (name : String) : List FilePath → FileAction (Option FilePath)
  | [] => return none
  | path :: rest => do
    if ← isFor path name then return some path else firstFor name rest

/-- The first definition that is for files of a name. -/
def definitionFor? (p : Project) (name : String) : FileAction (Option FilePath) := do
  firstFor name (← p.definitions)

/-- The dataset of a definition in a file, called like the file. -/
def compileFile (p : Project) (path : FilePath) : FileAction Dataset := do
  let d ← Definition.load path
  (d.compileNamed (path.stem?.getD "dataset") p.defaults).toAction

/-- The dataset that every file of the project has to meet. -/
def standard (p : Project) : FileAction Dataset := do
  (p.defaults.standard (← p.name)).toAction

end Project

end ProductSpec
