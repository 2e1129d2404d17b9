/-
  Making, comparing and listing releases.
-/
import ProductSpec.Command.Projects
import ProductSpec.Comparison.Release
import ProductSpec.LineDiff.Unified
import ProductSpec.Store.Freeze

namespace ProductSpec

open FileAction

/-- The differences between two definitions of a product, line by line. -/
def Dataset.textDiff (old new : Dataset) : String :=
  LineDiff.unified old.name new.name old.toJson.pretty new.toJson.pretty

/-- How a bump is named to a reader. -/
def Bump.title : Bump → String
  | patch => "Patch"
  | minor => "Minor"
  | major => "Major"

def Bump.rank : Bump → Nat
  | patch => 0
  | minor => 1
  | major => 2

namespace Command

def printLines : List String → FileAction Unit
  | [] => return ()
  | line :: rest => do
    printLine line
    printLines rest

/-- The products of definitions, by name. No two of them may have one name. -/
def compileAll (project : Project) :
    List FilePath → NameMap Dataset → FileAction (NameMap Dataset)
  | [], products => return products
  | path :: rest, products => do
    let d ← (project.compileFile path).inContext ("compiling " ++ path.text)
    if products.contains d.productName then
      throw (.plain ("two definitions produce the product name '" ++ d.productName ++ "'"))
    compileAll project rest (products.insert d.productName d)

/-- Releases all products of a project. -/
def createRelease (config : Configuration) (project : FilePath) (tag : String)
    (output : Option FilePath) : FileAction Nat := do
  let project ← openProject config (some project)
  let products ← compileAll project (← project.definitions) .empty
  if products.size = 0 then
    throw (.plain ("no definitions found in " ++ project.definitionsDir.text))
  let root := output.getD config.release.outputDir
  let release ← Store.freeze ⟨root, config.release.options⟩ products tag
  printLine ("Created " ++ release.dirName ++ " in " ++ root.text)
  printLines (release.products.names.map fun name => "  " ++ name)
  return 0

def changeLine (c : Change) : String :=
  "  " ++ (if c.isBreaking then "!" else " ") ++ " " ++ c.path.text ++ " : " ++ c.description ++ "\n"

/-- What is said about one product of two releases. -/
def productText (old new : Release) (text : Bool) (name : String) (c : Comparison) : String :=
  let heading := "\n" ++ name ++ " [" ++ (if c.isCompatible then "ok" else "BREAKING") ++ "]: " ++
    c.summary ++ "\n"
  let differences := match old.products.get? name, new.products.get? name with
    | some a, some b => if text then a.textDiff b else ""
    | _, _ => ""
  heading ++ String.join (c.changes.map changeLine) ++ differences

/-- The greatest bump that any product asks for. -/
def requiredBump (comparisons : NameMap Comparison) : Bump :=
  comparisons.values.foldl (fun bump c =>
    if bump.rank < c.requiredBump.rank then c.requiredBump else bump) .patch

/-- Compares two releases. The exit code is zero if the version says enough about the changes. -/
def compareReleases (config : Configuration) (output : Option FilePath) (oldTag newTag : String)
    (strict text : Bool) : FileAction Nat := do
  let store : Store := ⟨output.getD config.release.outputDir, .standard⟩
  let old ← store.load oldTag
  let new ← store.load newTag
  let comparisons := old.compare strict new
  printLine ("Comparing " ++ old.dirName ++ " -> " ++ new.dirName)
  print (String.join (comparisons.toList.map fun (name, c) => productText old new text name c))
  let bump := requiredBump comparisons
  match new.version.bumpFrom? old.version with
  | none =>
    printLine ("\n" ++ new.dirName ++ " is not newer than " ++ old.dirName)
    return if bump = .patch then 0 else 1
  | some declared =>
    if declared.rank < bump.rank then
      printLine ("\nChanges need at least a " ++ bump.title ++ " version bump")
      return 1
    else return 0

def manifestLine (m : Manifest) : String :=
  m.tag ++ "\t" ++ m.createdAt.shortText ++ "\t" ++ Text.join ", " m.products.names ++ "\n"

def listReleases (config : Configuration) (output : Option FilePath) : FileAction Nat := do
  let store : Store := ⟨output.getD config.release.outputDir, .standard⟩
  print (String.join ((← store.list).map manifestLine))
  return 0

end Command

end ProductSpec
