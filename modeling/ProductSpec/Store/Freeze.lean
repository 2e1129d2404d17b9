/-
  Adding a release to a store. Its directory is written under a hidden name and then renamed, so
  that it is there as a whole or not at all; a release is never changed afterwards. If anything
  fails, the store keeps the releases that it had.
-/
import ProductSpec.Checksum.List
import ProductSpec.Dataset.Codec
import ProductSpec.Store.Basic
import ProductSpec.Store.Lock
import ProductSpec.Store.Manifest

namespace ProductSpec

namespace Release

/-- A file of a release. -/
structure Artifact where
  file : String
  content : String
deriving DecidableEq, Inhabited

def Artifact.checksum (a : Artifact) : String := ProductSpec.checksum a.content.toUTF8

def productFile (name : String) : String := name ++ ".json"

def productArtifact (format : OutputFormat) (name : String) (d : Dataset) : Artifact :=
  ⟨productFile name, format.render d.toJson⟩

def productArtifacts (format : OutputFormat) (r : Release) : List Artifact :=
  r.products.toList.map fun (name, d) => productArtifact format name d

def schemaArtifact (format : OutputFormat) (r : Release) : Artifact :=
  ⟨Store.schemaName, format.render r.jsonSchema⟩

/-- The manifest of a release whose documents are laid out in a format. -/
def manifest (format : OutputFormat) (r : Release) : Manifest where
  tag := r.tag
  version := r.version
  createdAt := r.createdAt
  products := ⟨r.products.entries.map fun (name, d) =>
      (name, ⟨productFile name, (productArtifact format name d).checksum, .ofNat d.nodeCount⟩), by
    simpa [Ascending, List.pairwise_map] using r.products.ascending⟩
  jsonSchema := Store.schemaName

/-- The manifest as a file, which is always laid out for reading. -/
def manifestArtifact (format : OutputFormat) (r : Release) : Artifact :=
  ⟨Store.manifestName, (r.manifest format).toJson.pretty⟩

/-- The checksums of the products and of the JSON Schema. -/
def checksums (format : OutputFormat) (r : Release) : ChecksumList :=
  (r.productArtifacts format ++ [r.schemaArtifact format]).foldl
    (fun l a => l.insert a.file a.checksum) .empty

/-- All files of a release in the order in which they are written. -/
def artifacts (options : StoreOptions) (r : Release) : List Artifact :=
  r.productArtifacts options.format ++ [r.schemaArtifact options.format,
    r.manifestArtifact options.format] ++
    if options.writeChecksums then
      [⟨Store.checksumsName, (r.checksums options.format).render⟩]
    else []

end Release

namespace Store

open FileAction

def writeArtifacts (directory : FilePath) : List Release.Artifact → FileAction Unit
  | [] => return ()
  | a :: rest => do
    writeText (directory.join a.file) a.content
    writeArtifacts directory rest

def copyEntries (source target : FilePath) : List (String × FileKind) → FileAction Unit
  | [] => return ()
  | (name, .file) :: rest => do
    ofFile (.perform (.copy (source.join name) (target.join name)))
    copyEntries source target rest
  | (_, .directory) :: rest => copyEntries source target rest

/-- Copies the files of a directory, but not the directories in it. -/
def copyFiles (source target : FilePath) : FileAction Unit := do
  createDirectories target
  copyEntries source target (← ofFile (.perform (.list source)))

/-- How often the lock on the newest release is tried. -/
def latestAttempts : Nat := 500

/-- Moves the new copy of the newest release to its place. The former copy waits beside it and
comes back on failure. -/
def swapLatest (s : Store) : FileAction Unit := do
  let latest := s.file latestName
  let staging := s.file ".latest.staging"
  let old := s.file ".latest.old"
  let hadLatest ← exists? latest
  if hadLatest then rename latest old
  (rename staging latest).onFailure do
    if hadLatest then tolerate (rename old latest)
    removeTree staging
  tolerate (removeIfExists old)

/-- Makes a copy of a directory the newest release. -/
def replaceLatest (s : Store) (source : FilePath) : FileAction Unit := do
  let lock := s.file ".latest.lock"
  Lock.wait latestAttempts lock
  FileAction.finallyDo (do
    removeIfExists (s.file ".latest.staging")
    removeIfExists (s.file ".latest.old")
    copyFiles source (s.file ".latest.staging")
    s.swapLatest) (Lock.release lock)

def lockPath (s : Store) (tag : String) : FilePath :=
  s.file ("." ++ Version.dirName tag ++ ".lock")

def stagingPath (s : Store) (tag : String) : FilePath :=
  s.file ("." ++ Version.dirName tag ++ ".staging")

/-- Writes a release while its lock is held. -/
def write (s : Store) (r : Release) : FileAction Unit := do
  let target := s.versionDir r.tag
  let staging := s.stagingPath r.tag
  removeIfExists staging
  FileAction.onFailure (do
    createDirectories staging
    writeArtifacts staging (r.artifacts s.options)) (removeTree staging)
  rename staging target
  (s.replaceLatest target).onFailure (removeTree target)

/-- Adds the release of products under a tag. -/
def freeze (s : Store) (products : NameMap Dataset) (tag : String) : FileAction Release := do
  if (Version.ofCheckedTag? tag).isNone then throw (.invalidTag tag)
  createDirectories s.root
  let target := s.versionDir tag
  if ← exists? target then throw (.versionExists tag)
  let lock := s.lockPath tag
  if !(← Lock.take lock) then
    if ← exists? target then throw (.versionExists tag)
    throw (.locked tag lock.text)
  FileAction.finallyDo (do
    if ← exists? target then throw (.versionExists tag)
    let now ← ofProgram (.perform .now)
    let r ← ofOption (.invalidTag tag) (Release.make? tag products now)
    s.write r
    return r) (Lock.release lock)

end Store

end ProductSpec
