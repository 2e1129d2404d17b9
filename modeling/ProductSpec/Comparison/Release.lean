/-
  Comparing two releases product by product, and the bump that their versions declare.
-/
import ProductSpec.Comparison.Dataset
import ProductSpec.Release.Basic

namespace ProductSpec

namespace Version

/-- The bump from an old version to a new one, if the new one is above it in one of its numbers. -/
def bumpFrom? (new old : Version) : Option Bump :=
  if new.isMajorBumpFrom old then some .major
  else if new.isMinorBumpFrom old then some .minor
  else if new.isPatchBumpFrom old then some .patch
  else none

end Version

namespace Release

/-- The comparison of every product of either release. -/
def compare (strict : Bool) (old new : Release) : NameMap Comparison :=
  .ofList (old.products.toList.map (fun (name, o) =>
      match new.products.get? name with
      | some n => (name, o.compare strict n)
      | none => (name, .productRemoved name)) ++
    (new.products.names.filter fun name => !old.products.contains name).map fun name =>
      (name, .productAdded name))

end Release

end ProductSpec
