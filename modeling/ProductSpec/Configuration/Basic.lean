/-
  The configuration: where a project is and how it is laid out, how files are checked, how
  releases are written and how long examples are.
-/
import ProductSpec.Configuration.Setting
import ProductSpec.File.Path
import ProductSpec.Store.Basic
import ProductSpec.Toml.Writer
import ProductSpec.Validation.Basic

namespace ProductSpec

open Json Number

structure ProjectSettings where
  path : FilePath
  definitionsDir : FilePath
  defaultsFile : FilePath
  /-- The file of the project registry, if it is not the user's. -/
  registry : Option FilePath
deriving DecidableEq, Repr, Inhabited

structure ReleaseSettings where
  outputDir : FilePath
  options : StoreOptions
deriving DecidableEq, Repr, Inhabited

structure Configuration where
  project : ProjectSettings
  check : ValidationOptions
  release : ReleaseSettings
  /-- The length that unlimited dimensions have in examples. -/
  unlimitedLength : Nat
deriving DecidableEq, Repr, Inhabited

namespace ProjectSettings

def standard : ProjectSettings := ⟨".", "definitions", "defaults.yaml", none⟩

def toJson (s : ProjectSettings) : Json :=
  .object ([("path", .text s.path.text), ("definitions_dir", .text s.definitionsDir.text),
    ("defaults_file", .text s.defaultsFile.text)] ++
    optional "registry" (s.registry.map fun p => .text p.text))

def path? (j : Json) : Decoded FilePath := (Setting.text j).map .ofText

def decode (j : Json) : Decoded ProjectSettings := do
  let r ← record ["path", "definitions_dir", "defaults_file", "registry"] j
  let path ← r.withDefault "path" standard.path path?
  let definitionsDir ← r.withDefault "definitions_dir" standard.definitionsDir path?
  let defaultsFile ← r.withDefault "defaults_file" standard.defaultsFile path?
  let registry ← r.optional "registry" path?
  return ⟨path, definitionsDir, defaultsFile, registry⟩

end ProjectSettings

/-- A policy out of settings. A category that is left out keeps its standard severity. -/
def SeverityPolicy.ofSettings (j : Json) : Decoded SeverityPolicy := do
  let r ← record (Category.all.map Category.code) j
  let read (c : Category) := r.withDefault c.code (standard.severity c) (Setting.choice Severity.ofCode?)
  return ⟨← read .missing, ← read .valueMismatch, ← read .typeMismatch,
    ← read .dimensionMismatch, ← read .dataTypeMismatch, ← read .unknownElement⟩

namespace ValidationOptions

def toJson (o : ValidationOptions) : Json :=
  .object [("allow_unknown", .bool o.allowUnknown), ("severity", o.policy.toJson)]

def ofSettings (j : Json) : Decoded ValidationOptions := do
  let r ← record ["allow_unknown", "severity"] j
  let allowUnknown ← r.withDefault "allow_unknown" standard.allowUnknown Setting.truth
  let policy ← r.withDefault "severity" standard.policy SeverityPolicy.ofSettings
  return ⟨allowUnknown, policy⟩

end ValidationOptions

namespace ReleaseSettings

def standard : ReleaseSettings := ⟨"products", .standard⟩

def toJson (s : ReleaseSettings) : Json :=
  .object [("output_dir", .text s.outputDir.text), ("output_format", .text s.options.format.code),
    ("write_checksums", .bool s.options.writeChecksums)]

def decode (j : Json) : Decoded ReleaseSettings := do
  let r ← record ["output_dir", "output_format", "write_checksums"] j
  let outputDir ← r.withDefault "output_dir" standard.outputDir ProjectSettings.path?
  let format ← r.withDefault "output_format" standard.options.format
    (Setting.choice OutputFormat.ofCode?)
  let writeChecksums ← r.withDefault "write_checksums" standard.options.writeChecksums Setting.truth
  return ⟨outputDir, format, writeChecksums⟩

end ReleaseSettings

namespace Configuration

def standard : Configuration := ⟨.standard, .standard, .standard, 1⟩

/-- The tables of the configuration in the order in which they are written. -/
def sections (c : Configuration) : List (String × Json) :=
  [("project", c.project.toJson), ("check", c.check.toJson), ("release", c.release.toJson),
    ("example", .object [("unlimited_length", .ofNat c.unlimitedLength)])]

def toJson (c : Configuration) : Json := .object c.sections

/-- The length of examples out of its table. -/
def lengthOf (j : Json) : Decoded Nat := do
  (← record ["unlimited_length"] j).withDefault "unlimited_length" standard.unlimitedLength
    Setting.natural

/-- The configuration out of settings. What is left out has its standard value. -/
def ofSettings (j : Json) : Decoded Configuration := do
  let r ← record ["project", "check", "release", "example"] j
  let project ← r.withDefault "project" .standard ProjectSettings.decode
  let check ← r.withDefault "check" .standard ValidationOptions.ofSettings
  let release ← r.withDefault "release" .standard ReleaseSettings.decode
  let unlimitedLength ← r.withDefault "example" standard.unlimitedLength lengthOf
  return ⟨project, check, release, unlimitedLength⟩

/-- The configuration as a file. A length of 64 bits has none. -/
def text? (c : Configuration) : Option String :=
  if fitsInt64 c.unlimitedLength then some (Toml.render c.sections) else none

end Configuration

end ProductSpec
