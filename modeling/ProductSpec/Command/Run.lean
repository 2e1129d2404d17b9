/-
  What the commands do. Each prints what it has to say and gives the exit code of the program.
-/
import ProductSpec.Command.Check
import ProductSpec.Command.Releases
import ProductSpec.DataFile.Example
import ProductSpec.Project.Scaffold

namespace ProductSpec

open FileAction

namespace Command

/-- An absolute path. What goes wrong is told as the system says it. -/
def canonical (path : FilePath) : FileAction FilePath := ExceptT.mk do
  return (← FileProgram.perform (.canonical path)).mapError Fault.bareFile

/-- Adds a project to the registry. -/
def registerProject (e : Environment) (config : Configuration) (project : FilePath) (conventions : String)
    (definitions : Option FilePath) (force : Bool) : FileAction Nat := do
  let path ← (canonical project).inContext ("opening project " ++ project.text)
  let spec ← ofOption (.badConvention conventions) (ConventionSpec.parse? conventions)
  let entry : RegisteredProject :=
    ⟨spec, path, path.join (definitions.getD config.project.definitionsDir)⟩
  let _ ← entry.load
  let registryPath ← ofOption (.plain "no user config directory; set project.registry")
    (config.registryPath? e)
  let registry ← Registry.load registryPath
  (← FileAction.ofExcept (registry.add entry force)).save registryPath
  printLine ("Registered " ++ spec.name ++ " in " ++ registryPath.text)
  return 0

/-- Writes an example file for a definition. -/
def writeExample (config : Configuration) (project : Option FilePath)
    (definition output : FilePath) : FileAction Nat := do
  let project ← openProject config project
  let dataset ← loadDefinition definition project
  ((dataset.exampleFile config.unlimitedLength).save output).inContext ("writing " ++ output.text)
  printLine ("Wrote example for " ++ dataset.productName ++ " to " ++ output.text)
  return 0

/-- Creates a project. -/
def startProject (directory : FilePath) : FileAction Nat := do
  let files ← Project.scaffold directory
  printLine ("Initialised project in " ++ directory.text)
  printLines (files.map fun file => "  " ++ file.text)
  return 0

def run (e : Environment) (config : Configuration) : Command → FileAction Nat
  | .check c => checkFile e config c
  | .register project conventions definitions force =>
    registerProject e config project conventions definitions force
  | .createVersion project tag output => createRelease config project tag output
  | .exampleData project definition output => writeExample config project definition output
  | .init directory => startProject directory
  | .diff output old new strict text => compareReleases config output old new strict text
  | .list output => listReleases config output

end Command

/-- How a run of the program ends: its exit code and what it says about what went wrong. -/
structure ExitStatus where
  code : Nat
  complaint : String
deriving DecidableEq, Repr, Inhabited

namespace Invocation

/-- Carries out a command under the configuration. -/
def run (e : Environment) (i : Invocation) : FileAction Nat := do
  let config ← (Configuration.load e i.config).inContext "loading configuration"
  i.command.run e config

end Invocation

/-- The version of the program. -/
def programVersion : String := "0.1.0"

def usageText : String :=
  "Usage: ncvocab [--config FILE] COMMAND [OPTIONS]\n\nCommands: " ++
    Text.join ", " Command.names ++ "\n"

/-- The program: prints what a command line asks for, or complains. -/
def runProgram (e : Environment) (arguments : List String) : FileProgram ExitStatus := do
  match Invocation.ofArguments arguments with
  | .error .usage => return ⟨2, "error: the command line is not understood\n\n" ++ usageText⟩
  | .error .help =>
    FileProgram.perform (.print usageText)
    return ⟨0, ""⟩
  | .error .version =>
    FileProgram.perform (.print ("ncvocab " ++ programVersion ++ "\n"))
    return ⟨0, ""⟩
  | .ok i =>
    match ← (i.run e).run with
    | .ok code => return ⟨code, ""⟩
    | .error fault => return ⟨1, "Error: " ++ Text.join ": " fault.chain ++ "\n"⟩

end ProductSpec
