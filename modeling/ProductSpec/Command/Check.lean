/-
  Checking a file against the standards of projects and against a definition.
-/
import ProductSpec.Command.Invocation
import ProductSpec.Command.Projects
import ProductSpec.DataFile.Dump
import ProductSpec.Validation.Dataset

namespace ProductSpec.Command

open FileAction

/-- A name without any `.json` at its end. -/
def withoutJson (name : String) : String :=
  let rec drop : Nat → List Char → List Char
    | 0, reversed => reversed
    | count + 1, reversed =>
      match Text.dropStart? "nosj.".toList reversed with
      | some rest => drop count rest
      | none => reversed
  String.ofList (drop name.length name.toList.reverse).reverse

/-- The first definition of a project that is for files of one of some names. -/
def definitionOf? (project : Project) : List String → FileAction (Option FilePath)
  | [] => return none
  | name :: rest => do
    match ← project.definitionFor? name with
    | some path => return some path
    | none => definitionOf? project rest

/-- The first definition that is for a file, and its project. A document may be named like the
file that it describes, with `.json` behind it. -/
def findDefinition? (path : FilePath) : List Project → FileAction (Option (FilePath × Project))
  | [] => return none
  | project :: rest => do
    let name := path.name?.getD ""
    match ← definitionOf? project [name, withoutJson name] with
    | some definition => return some (definition, project)
    | none => findDefinition? path rest

/-- The report on a file, printed. Whether the file is compliant. -/
def tell (c : CheckCommand) (options : ValidationOptions) (file : DataFile) (dataset : Dataset)
    (label : String) : FileAction Bool := do
  let report := dataset.validate options file
  print (report.render c.verbosity c.file.text label)
  return report.isCompliant

/-- Checks a file against the standards of projects. What a standard does not know is no fault. -/
def checkStandards (c : CheckCommand) (options : ValidationOptions) (file : DataFile) :
    List Project → FileAction Bool
  | [] => return true
  | project :: rest => do
    let standard ← project.standard.inContext
      ("compiling the standard of " ++ project.root.text)
    let isCompliant ← tell c { options with allowUnknown := true } file standard
      (standard.productName ++ " standard")
    return (← checkStandards c options file rest) && isCompliant

/-- The definition that a file is checked against, if there is one. -/
def definitionFor? (c : CheckCommand) (projects : List Project) :
    FileAction (Option (FilePath × Project)) :=
  match c.definition, projects with
  | some path, project :: _ => return some (path, project)
  | _, _ => findDefinition? c.file projects

/-- Checks a file. The exit code is zero if it is compliant with all that it is checked against. -/
def checkFile (e : Environment) (config : Configuration) (c : CheckCommand) : FileAction Nat := do
  if c.file.extension? = some "nc" then
    throw (.plain (c.file.text ++
      " is a netCDF file; dump its structure to JSON and check the dump"))
  let file ← (DataFile.load c.file).inContext ("reading " ++ c.file.text)
  let projects ← checkProjects e config c.projects file
  let options := if c.isClosed then { config.check with allowUnknown := false } else config.check
  let meetsStandards ← checkStandards c options file projects
  match ← definitionFor? c projects with
  | some (path, project) =>
    let dataset ← loadDefinition path project
    let meetsDefinition ← tell c options file dataset dataset.productName
    return if meetsStandards && meetsDefinition then 0 else 1
  | none =>
    if c.verbosity ≠ .quiet then
      printLine "No product definition matches; checked against project standards only"
    return if meetsStandards then 0 else 1

end ProductSpec.Command
