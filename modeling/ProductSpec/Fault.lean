/-
  Why an operation of the library fails, and programs that may fail.
-/
import ProductSpec.Definition.Violation
import ProductSpec.File.Program

namespace ProductSpec

inductive Fault
  | definition (v : Violation)
  | versionExists (tag : String)
  | locked (tag lock : String)
  | alreadyRegistered (name : String)
  | notFound (name version : String)
  | checksumMismatch (file expected actual : String)
  | invalidTag (tag : String)
  | badChecksumLine (line : String)
  | badConvention (text : String)
  | file (e : FileError)
  /-- A file error that is told as it is. -/
  | bareFile (e : FileError)
  | json
  | yaml
  | configuration
  /-- A failure that the command line finds itself. -/
  | plain (text : String)
  /-- What was being done when something failed. -/
  | context (doing : String) (cause : Fault)

namespace Fault

def message : Fault → String
  | definition v => v.message
  | versionExists tag => "Version " ++ tag ++ " already exists and is immutable"
  | locked tag lock =>
    "Version " ++ tag ++ " is being written by another process (lock file " ++ lock ++ ")"
  | alreadyRegistered name => "Project for '" ++ name ++ "' is already registered"
  | notFound name version => "Not found: " ++ name ++ " version " ++ version
  | checksumMismatch name expected actual =>
    "Checksum mismatch for " ++ name ++ ": expected " ++ expected ++ ", got " ++ actual
  | invalidTag tag => "Invalid version: " ++ tag
  | badChecksumLine line => "Invalid format: bad checksum line '" ++ line ++ "'"
  | badConvention text =>
    "Invalid format: invalid conventions string '" ++ text ++
      "', expected NAME, NAME-[] or NAME-[].[]"
  | file e => "IO error: " ++ e.message
  | bareFile e => e.message
  | json => "JSON error: the document cannot be read"
  | yaml => "YAML error: the document cannot be read"
  | configuration => "the configuration cannot be read"
  | plain text => text
  | context doing _ => doing

/-- The message of a failure and those of its causes, the outermost first. -/
def chain : Fault → List String
  | .context doing cause => doing :: cause.chain
  | .file e => [(Fault.file e).message, e.message]
  | other => [other.message]

end Fault

/-- A program that may fail. -/
abbrev FileAction := ExceptT Fault FileProgram

namespace FileAction

variable {α : Type}

/-- A program whose failure is a file error. -/
def ofFile (p : FileProgram (Except FileError α)) : FileAction α :=
  ExceptT.mk do return (← p).mapError Fault.file

/-- A program that cannot fail. -/
def ofProgram (p : FileProgram α) : FileAction α := ExceptT.lift p

def exists? (path : FilePath) : FileAction Bool := ofProgram (.exists? path)

def isFile (path : FilePath) : FileAction Bool := ofProgram (.isFile path)

def isDirectory (path : FilePath) : FileAction Bool := ofProgram (.isDirectory path)

def readText (path : FilePath) : FileAction String := ofFile (.readText path)

def readBytes (path : FilePath) : FileAction ByteArray := ofFile (.perform (.read path))

def writeText (path : FilePath) (text : String) : FileAction Unit := ofFile (.writeText path text)

def createDirectories (path : FilePath) : FileAction Unit := ofFile (.createDirectories path)

def rename (source target : FilePath) : FileAction Unit := ofFile (.perform (.rename source target))

def removeTree (path : FilePath) : FileAction Unit := ofFile (.perform (.removeTree path))

/-- Removes a directory that may not be there. -/
def removeIfExists (path : FilePath) : FileAction Unit := do
  if ← exists? path then removeTree path

/-- A program of which it does not matter whether it fails. -/
def tolerate (a : FileAction Unit) : FileAction Unit := ofProgram do
  let _ ← a.run

/-- Undoes something if an action fails, whose failure stays. -/
def onFailure (a : FileAction α) (undo : FileAction Unit) : FileAction α := ExceptT.mk do
  match ← a.run with
  | .ok x => return .ok x
  | .error e =>
    let _ ← undo.run
    return .error e

/-- Does something at the end of an action, whether it fails or not. -/
def finallyDo (a : FileAction α) (last : FileAction Unit) : FileAction α := ExceptT.mk do
  let result ← a.run
  let _ ← last.run
  return result

/-- Says what was being done when an action fails. -/
def inContext (doing : String) (a : FileAction α) : FileAction α := ExceptT.mk do
  return (← a.run).mapError (Fault.context doing)

/-- A value that may be a failure. -/
def ofExcept (x : Except Fault α) : FileAction α := ExceptT.mk (.done x)

/-- A value that is a failure if it is missing. -/
def ofOption (fault : Fault) (x : Option α) : FileAction α :=
  ofExcept (match x with
    | some a => .ok a
    | none => .error fault)

def print (text : String) : FileAction Unit := ofProgram (.perform (.print text))

def printLine (text : String) : FileAction Unit := print (text ++ "\n")

end FileAction

end ProductSpec
