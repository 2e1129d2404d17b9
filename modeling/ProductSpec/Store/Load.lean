/-
  Reading releases back out of a store. A release with a list of checksums is checked against it
  first.
-/
import ProductSpec.Checksum.List
import ProductSpec.Dataset.Codec
import ProductSpec.Store.Basic
import ProductSpec.Store.Manifest

namespace ProductSpec

open FileAction

/-- A document read out of a file. -/
def readDocument {α : Type} (decode : Json → Json.Decoded α) (path : FilePath) :
    FileAction α := do
  ofOption .json (decodeDocument decode (← readText path))

/-- A product as it was released. -/
def Dataset.load (path : FilePath) : FileAction Dataset := readDocument Group.decode path

namespace ChecksumList

/-- A list out of a file's text. -/
def ofText (text : String) : FileAction ChecksumList :=
  FileAction.ofExcept ((parse text).mapError .badChecksumLine)

def verifyEntries (directory : FilePath) : List (String × String) → FileAction Unit
  | [] => return ()
  | (file, expected) :: rest => do
    let actual := checksum (← readBytes (directory.join file))
    if actual ≠ expected then throw (.checksumMismatch file expected actual)
    verifyEntries directory rest

/-- Whether the files of a directory are those of the list. -/
def verify (l : ChecksumList) (directory : FilePath) : FileAction Unit :=
  verifyEntries directory l.entries.toList

end ChecksumList

namespace Store

def manifest (s : Store) (tag : String) : FileAction Manifest := do
  if ← s.contains tag then readDocument Manifest.decode (s.manifestPath tag)
  else throw (.notFound "version" tag)

def loadProducts (directory : FilePath) :
    List (String × ProductEntry) → FileAction (List (String × Dataset))
  | [] => return []
  | (name, entry) :: rest => do
    let d ← Dataset.load (directory.join entry.file)
    return (name, d) :: (← loadProducts directory rest)

/-- The release of a tag, or the newest one. -/
def load (s : Store) (tag : String) : FileAction Release := do
  let directory := s.versionDir tag
  let m ← s.manifest tag
  let checksums := directory.join checksumsName
  if ← isFile checksums then
    (← ChecksumList.ofText (← readText checksums)).verify directory
  let products ← loadProducts directory m.products.toList
  let jsonSchema ← readDocument .ok (directory.join m.jsonSchema)
  return ⟨m.tag, m.version, m.createdAt, .ofList products, jsonSchema⟩

/-- Whether the name of a directory may be that of a release. -/
def isReleaseName (name : String) : Bool :=
  name.toList.head? ≠ some '.' ∧ name ≠ latestName

/-- The manifests of those entries of the store that are releases. -/
def manifestsOf (s : Store) : List (String × FileKind) → FileAction (List Manifest)
  | [] => return []
  | (name, kind) :: rest => do
    let path := (s.file name).join manifestName
    if kind = .directory ∧ isReleaseName name then
      if ← isFile path then
        let m ← readDocument Manifest.decode path
        return m :: (← s.manifestsOf rest)
    s.manifestsOf rest

/-- The manifests of all releases, the oldest version first. -/
def list (s : Store) : FileAction (List Manifest) := do
  if !(← isDirectory s.root) then return []
  let manifests ← s.manifestsOf (← ofFile (.perform (.list s.root)))
  return manifests.mergeSort fun a b => (a.order b).isLE

end Store

end ProductSpec
