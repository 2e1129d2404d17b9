/-
  Releases: all products of a project under one tag. Releases are ordered by their versions, and
  those of one version by their tags.
-/
import ProductSpec.JsonSchema.Derive
import ProductSpec.Timestamp
import ProductSpec.Version.Tag

namespace ProductSpec

structure Release where
  /-- The tag as it was given. -/
  tag : String
  version : Version
  createdAt : Timestamp
  products : NameMap Dataset
  jsonSchema : Json
deriving Inhabited

namespace Release

/-- The release of products under a tag, if the tag may name a directory. -/
def make? (tag : String) (products : NameMap Dataset) (now : Timestamp) : Option Release := do
  return ⟨tag, ← Version.ofCheckedTag? tag, now, products, JsonSchema.ofProducts products⟩

def dirName (r : Release) : String := Version.dirName r.tag

/-- The order of a version and its tag. -/
def orderTags (a b : Version × String) : Ordering :=
  (compare a.1 b.1).then (compare a.2 b.2)

def order (a b : Release) : Ordering := orderTags (a.version, a.tag) (b.version, b.tag)

/-- The same version under the same tag. -/
def isSame (a b : Release) : Bool := a.version == b.version && a.tag == b.tag

end Release

end ProductSpec
