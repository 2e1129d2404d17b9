/-
  What holds of every dataset that comes from a definition: names are filled and differ among
  siblings, variables use dimensions in scope, and literals are scalars or flat lists. From the
  names alone it follows that no two nodes have the same path.
-/
import ProductSpec.Dataset.Basic
import Mathlib.Data.List.Nodup

namespace ProductSpec

namespace Literal

/-- A single value; a text is not shaped like a placeholder. -/
def IsPlain : Literal → Prop
  | text s => Placeholder.isShaped s = false
  | int _ | float _ => True
  | list _ => False

/-- A single value, or a list of single values that does not mix texts and numbers. -/
def IsFlat : Literal → Prop
  | list items =>
    (∀ l ∈ items, l.IsPlain) ∧ ((∀ l ∈ items, l.isText = true) ∨ ∀ l ∈ items, l.isText = false)
  | l => l.IsPlain

end Literal

/-- The names of siblings: none is empty and no two are equal. -/
structure SiblingNames (names : List String) : Prop where
  filled : "" ∉ names
  distinct : names.Nodup

/-- A block of attributes as definitions give it. -/
structure AttributeBlock (attributes : List AttributeConstraint) : Prop where
  names : SiblingNames (attributes.map AttributeConstraint.name)
  flat : ∀ c ∈ attributes, ∀ l, c.kind = .literal l → l.IsFlat

namespace Group

/-- The dimensions that the contents of a group may use. -/
def scopeNames (g : Group) (outer : List String) : List String :=
  g.dimensions.map Dimension.name ++ outer

/-- A group as definitions give it; `outer` holds the dimensions declared around it. -/
inductive WellFormed : (outer : List String) → Group → Prop
  | intro {outer : List String} {g : Group}
      (attributes : AttributeBlock g.attributes)
      (dimensions : SiblingNames (g.dimensions.map Dimension.name))
      (vars : SiblingNames (g.vars.map Variable.name))
      (groups : SiblingNames (g.groups.map Group.name))
      (blocks : ∀ v ∈ g.vars, AttributeBlock v.attributes)
      (declared : ∀ v ∈ g.vars, ∀ d ∈ v.dimensions, d ∈ g.scopeNames outer)
      (inner : ∀ h ∈ g.groups, h.WellFormed (g.scopeNames outer)) :
      WellFormed outer g

namespace WellFormed

variable {outer : List String} {g : Group}

theorem attributes (h : g.WellFormed outer) : AttributeBlock g.attributes := by
  cases h; assumption

theorem dimensions (h : g.WellFormed outer) : SiblingNames (g.dimensions.map Dimension.name) := by
  cases h; assumption

theorem vars (h : g.WellFormed outer) : SiblingNames (g.vars.map Variable.name) := by
  cases h; assumption

theorem groups (h : g.WellFormed outer) : SiblingNames (g.groups.map Group.name) := by
  cases h; assumption

theorem blocks (h : g.WellFormed outer) {v : Variable} (mem : v ∈ g.vars) :
    AttributeBlock v.attributes := by
  cases h with
  | intro _ _ _ _ blocks => exact blocks v mem

theorem declared (h : g.WellFormed outer) {v : Variable} (mem : v ∈ g.vars) {d : String}
    (used : d ∈ v.dimensions) : d ∈ g.scopeNames outer := by
  cases h with
  | intro _ _ _ _ _ declared => exact declared v mem d used

theorem inner (h : g.WellFormed outer) {child : Group} (mem : child ∈ g.groups) :
    child.WellFormed (g.scopeNames outer) := by
  cases h with
  | intro _ _ _ _ _ _ inner => exact inner child mem

end WellFormed

end Group

end ProductSpec
