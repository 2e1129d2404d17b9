/-
  Stores of releases. A store is a directory with one directory for each release, named for the
  release's tag, and a copy of the newest one. Names that begin with a point are its own.
-/
import ProductSpec.Fault
import ProductSpec.Json.Writer
import ProductSpec.Release.Basic

namespace ProductSpec

/-- How the documents of a release are laid out. -/
inductive OutputFormat
  | pretty
  | compact
deriving DecidableEq, Repr, Inhabited

namespace OutputFormat

def code : OutputFormat → String
  | pretty => "pretty"
  | compact => "compact"

def ofCode? : String → Option OutputFormat
  | "pretty" => some pretty
  | "compact" => some compact
  | _ => none

def render : OutputFormat → Json → String
  | pretty, j => j.pretty
  | compact, j => j.compact

end OutputFormat

structure StoreOptions where
  format : OutputFormat
  /-- Whether a release gets a list of checksums. -/
  writeChecksums : Bool
deriving DecidableEq, Repr, Inhabited

def StoreOptions.standard : StoreOptions := ⟨.pretty, true⟩

structure Store where
  root : FilePath
  options : StoreOptions
deriving Inhabited

namespace Store

/-- The name of the copy of the newest release. -/
def latestName : String := "latest"

def manifestName : String := "manifest.json"

def checksumsName : String := "checksums.sha256"

def schemaName : String := "dataset_schema.json"

def file (s : Store) (name : String) : FilePath := s.root.join name

/-- The directory of a tag, or that of the newest release. -/
def versionDir (s : Store) (tag : String) : FilePath :=
  s.file (if tag = latestName then latestName else Version.dirName tag)

def manifestPath (s : Store) (tag : String) : FilePath := (s.versionDir tag).join manifestName

/-- Whether the store has a release of a tag. -/
def contains (s : Store) (tag : String) : FileAction Bool := FileAction.isFile (s.manifestPath tag)

end Store

end ProductSpec
