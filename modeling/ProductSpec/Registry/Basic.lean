/-
  The registry of projects, by the names of the conventions that they answer to.
-/
import ProductSpec.Json.Decode
import ProductSpec.Project.Basic
import ProductSpec.Registry.Convention
import ProductSpec.Yaml.Decode
import ProductSpec.Yaml.Writer

namespace ProductSpec

open FileAction Yaml

/-- A project and where it is. -/
structure RegisteredProject where
  spec : ConventionSpec
  path : FilePath
  definitions : FilePath
deriving DecidableEq, Repr, Inhabited

namespace ConventionSpec

def toJson (s : ConventionSpec) : Json :=
  .object [("name", .text s.name), ("has_major", .bool s.hasMajor), ("has_minor", .bool s.hasMinor)]

def ofNode? (n : Node) : Option ConventionSpec := do
  let members ← n.members? ["name", "has_major", "has_minor"]
  return {
    name := ← required? members "name" Node.text?
    hasMajor := ← required? members "has_major" Node.truth?
    hasMinor := ← required? members "has_minor" Node.truth? }

end ConventionSpec

namespace RegisteredProject

def toJson (p : RegisteredProject) : Json :=
  .object [("spec", p.spec.toJson), ("path", .text p.path.text),
    ("definitions", .text p.definitions.text)]

def ofNode? (n : Node) : Option RegisteredProject := do
  let members ← n.members? ["spec", "path", "definitions"]
  return {
    spec := ← required? members "spec" ConventionSpec.ofNode?
    path := .ofText (← required? members "path" Node.text?)
    definitions := .ofText (← required? members "definitions" Node.text?) }

/-- Opens the project with the usual file of defaults. -/
def load (p : RegisteredProject) : FileAction Project :=
  Project.load p.path Project.defaultsName p.definitions

end RegisteredProject

structure Registry where
  projects : NameMap RegisteredProject
deriving DecidableEq, Inhabited

namespace Registry

def empty : Registry := ⟨∅⟩

def get? (r : Registry) (name : String) : Option RegisteredProject := r.projects.get? name

/-- Adds a project under its name. Only with `force` it takes the place of another one. -/
def add (r : Registry) (p : RegisteredProject) (force : Bool) : Except Fault Registry :=
  if r.projects.contains p.spec.name && !force then .error (.alreadyRegistered p.spec.name)
  else .ok ⟨r.projects.insert p.spec.name p⟩

def erase (r : Registry) (name : String) : Registry := ⟨r.projects.erase name⟩

/-- The projects that a file with such conventions follows, in the order of their names. -/
def matching (r : Registry) (conventions : String) : List RegisteredProject :=
  r.projects.values.filter fun p =>
    (ConventionSpec.conventions conventions).any p.spec.matches

def toJson (r : Registry) : Json := .ofMap RegisteredProject.toJson r.projects

/-- Reads a registry. Of two projects under one name the later one counts. -/
def read? (text : String) : Option Registry := do
  let entries ← match ← Node.read? text with
    | .mapping _ entries => some entries
    | n => if n.isEmpty then some [] else none
  let projects ← entries.mapM fun (k, v) => do return (← k.text?, ← RegisteredProject.ofNode? v)
  return ⟨.ofList projects⟩

def text (r : Registry) : String :=
  Writer.render (r.projects.mapValues RegisteredProject.toJson).toList

/-- The registry of a file, which may be missing or blank. -/
def load (path : FilePath) : FileAction Registry := do
  if !(← isFile path) then return empty
  let text ← readText path
  if (Text.trim text.toList).isEmpty then return empty
  ofOption .yaml (read? text)

def save (r : Registry) (path : FilePath) : FileAction Unit := do
  match path.parent? with
  | some directory => createDirectories directory
  | none => pure ()
  writeText path r.text

end Registry

end ProductSpec
