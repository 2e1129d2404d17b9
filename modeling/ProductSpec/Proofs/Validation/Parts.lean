/-
  The checks of a group taken apart: each attribute, dimension, variable and group has checks of
  its own, at and below its own path, and what the report holds there comes from them alone. Parts
  of the file that the dataset does not name are allowed throughout.
-/
import ProductSpec.Proofs.Validation.Places

namespace ProductSpec

/-- The options that allow what a dataset does not name. -/
def ValidationOptions.tolerant (policy : SeverityPolicy) : ValidationOptions := ⟨true, policy⟩

@[simp] theorem ValidationOptions.unknown_tolerant (policy : SeverityPolicy) (path : NodePath)
    (kind : String) (names declared : List String) :
    (tolerant policy).unknown path kind names declared = [] := rfl

/-- One part of a group, or of a variable, with the outcomes of its checks. -/
structure CheckedPart where
  kind : String
  name : String
  entries : List Entry

namespace CheckedPart

def key (p : CheckedPart) : String × String := (p.kind, p.name)

/-- All outcomes are at the part or below it. -/
def Within (path : NodePath) (p : CheckedPart) : Prop :=
  ∀ e ∈ p.entries, path.child p.kind p.name <+: e.path

theorem filter_eq_nil {path : NodePath} {p p' : CheckedPart} {own : NodePath → Bool}
    (within : p'.Within path) (unlike : p'.key ≠ p.key)
    (below : ∀ q, own q = true → path.child p.kind p.name <+: q) :
    (p'.entries.filter fun e => own e.path) = [] := by
  rw [List.filter_eq_nil_iff]
  intro e mem here
  obtain ⟨kinds, names⟩ := NodePath.child_unique (within e mem) (below _ here)
  exact unlike (Prod.ext kinds names)

/-- The outcomes below one part are those of its own checks. -/
theorem filter_flatMap {path : NodePath} {parts : List CheckedPart} {p : CheckedPart}
    {own : NodePath → Bool} (distinct : (parts.map key).Nodup)
    (within : ∀ p ∈ parts, p.Within path) (mem : p ∈ parts)
    (below : ∀ q, own q = true → path.child p.kind p.name <+: q) :
    ((parts.flatMap entries).filter fun e => own e.path) =
      p.entries.filter fun e => own e.path := by
  induction parts with
  | nil => cases mem
  | cons head rest ih =>
    obtain ⟨fresh, distinct⟩ := List.nodup_cons.1 distinct
    obtain ⟨first, others⟩ := List.forall_mem_cons.1 within
    rw [List.flatMap_cons, List.filter_append]
    rcases List.mem_cons.1 mem with rfl | mem
    · have none : ((rest.flatMap entries).filter fun e => own e.path) = [] := by
        rw [List.filter_flatMap, List.flatMap_eq_nil_iff]
        intro p' isIn
        refine filter_eq_nil (others p' isIn) (fun same => fresh ?_) below
        exact same ▸ List.mem_map_of_mem isIn
      rw [none, List.append_nil]
    · have unlike : head.key ≠ p.key := fun same => fresh (same ▸ List.mem_map_of_mem mem)
      rw [filter_eq_nil first unlike below, List.nil_append, ih distinct others mem]

end CheckedPart

section

variable (policy : SeverityPolicy)

namespace AttributeConstraint

def part (path : NodePath) (actual : NameMap AttributeValue) (c : AttributeConstraint) :
    CheckedPart :=
  ⟨"attributes", c.name, c.check (.tolerant policy) path actual⟩

theorem within_part (path : NodePath) (actual : NameMap AttributeValue) (c : AttributeConstraint) :
    (c.part policy path actual).Within path :=
  fun _ mem => path_of_mem_check mem ▸ List.prefix_rfl

end AttributeConstraint

theorem checkAttributes_tolerant (path : NodePath) (constraints : List AttributeConstraint)
    (actual : NameMap AttributeValue) :
    checkAttributes (.tolerant policy) path constraints actual =
      (constraints.map (AttributeConstraint.part policy path actual)).flatMap
        CheckedPart.entries := by
  rw [checkAttributes, ValidationOptions.unknown_tolerant, List.append_nil, List.flatMap_map]
  rfl

namespace Dimension

def part (path : NodePath) (file : FileGroup) (d : Dimension) : CheckedPart :=
  ⟨"dimensions", d.name, d.check (.tolerant policy) path file⟩

theorem within_part (path : NodePath) (file : FileGroup) (d : Dimension) :
    (d.part policy path file).Within path :=
  fun _ mem => path_of_mem_check mem ▸ List.prefix_rfl

end Dimension

namespace Variable

theorem mem_dimensionFaults_iff {v : Variable} {scope : Scope} {actual : FileVariable}
    {name : String} {fault : DimensionFault} :
    (name, fault) ∈ v.dimensionFaults scope actual ↔
      name ∈ v.dimensions ∧ name ∈ actual.dimensions ∧ scope.fault? name = some fault := by
  simp only [dimensionFaults, List.mem_filterMap, List.mem_filter, decide_eq_true_eq,
    Option.map_eq_some_iff, Prod.mk.injEq]
  constructor
  · rintro ⟨other, ⟨declared, stored⟩, found, isFault, rfl, rfl⟩
    exact ⟨declared, stored, isFault⟩
  · rintro ⟨declared, stored, isFault⟩
    exact ⟨name, ⟨declared, stored⟩, fault, isFault, rfl, rfl⟩

def part (scope : Scope) (path : NodePath) (file : FileGroup) (v : Variable) : CheckedPart :=
  ⟨"variables", v.name, v.check (.tolerant policy) scope path file⟩

theorem within_part (scope : Scope) (path : NodePath) (file : FileGroup) (v : Variable) :
    (v.part policy scope path file).Within path :=
  fun _ => prefix_of_mem_check

end Variable

namespace Group

def part (scope : Scope) (path : NodePath) (file : FileGroup) (g : Group) : CheckedPart :=
  ⟨"groups", g.name, g.checkInner (.tolerant policy) scope path file⟩

/-- The parts of a group in the order in which they are checked. -/
def parts (scope : Scope) (path : NodePath) (file : FileGroup) (g : Group) : List CheckedPart :=
  g.attributes.map (AttributeConstraint.part policy path file.attributes) ++
    g.dimensions.map (Dimension.part policy path file) ++
    g.vars.map (Variable.part policy (g.level file :: scope) path file) ++
    g.groups.map (Group.part policy (g.level file :: scope) path file)

theorem check_tolerant (scope : Scope) (path : NodePath) (file : FileGroup) (g : Group) :
    g.check (.tolerant policy) scope path file =
      (g.parts policy scope path file).flatMap CheckedPart.entries := by
  rw [check_eq]
  simp only [ValidationOptions.unknown_tolerant, List.append_nil, parts, List.flatMap_append,
    checkAttributes_tolerant, List.flatMap_map]
  rfl

theorem within_parts (scope : Scope) (path : NodePath) (file : FileGroup) (g : Group) :
    ∀ p ∈ g.parts policy scope path file, p.Within path := by
  intro p mem
  simp only [parts, List.mem_append, List.mem_map] at mem
  rcases mem with ((⟨c, -, rfl⟩ | ⟨d, -, rfl⟩) | ⟨v, -, rfl⟩) | ⟨h, -, rfl⟩
  · exact c.within_part policy path _
  · exact d.within_part policy path file
  · exact v.within_part policy _ path file
  · exact fun _ => prefix_of_mem_checkInner

theorem nodup_keys {α : Type} {items : List α} {name : α → String} (part : α → CheckedPart)
    (kind : String) (keys : ∀ x, (part x).key = (kind, name x)) (h : (items.map name).Nodup) :
    ((items.map part).map CheckedPart.key).Nodup := by
  have mapped : (items.map part).map CheckedPart.key = (items.map name).map (Prod.mk kind) := by
    rw [List.map_map, List.map_map]
    exact List.map_congr_left fun x _ => keys x
  rw [mapped]
  exact h.map fun _ _ same => (Prod.mk.inj same).2

theorem nodup_parts {outer : List String} {g : Group} (wf : g.WellFormed outer) (scope : Scope)
    (path : NodePath) (file : FileGroup) :
    ((g.parts policy scope path file).map CheckedPart.key).Nodup := by
  rw [parts, List.map_append, List.map_append, List.map_append]
  have attributes := nodup_keys (AttributeConstraint.part policy path file.attributes)
    "attributes" (fun _ => rfl) wf.attributes.names.distinct
  have dimensions := nodup_keys (Dimension.part policy path file) "dimensions" (fun _ => rfl)
    wf.dimensions.distinct
  have vars := nodup_keys (Variable.part policy (g.level file :: scope) path file) "variables"
    (fun _ => rfl) wf.vars.distinct
  have groups := nodup_keys (Group.part policy (g.level file :: scope) path file) "groups"
    (fun _ => rfl) wf.groups.distinct
  -- Parts of different kinds are told apart by their kind.
  refine List.nodup_append.2 ⟨List.nodup_append.2 ⟨List.nodup_append.2 ⟨attributes, dimensions, ?_⟩,
    vars, ?_⟩, groups, ?_⟩ <;>
  · rintro key mem other mem' rfl
    simp only [List.mem_append, List.mem_map] at mem mem'
    grind [CheckedPart.key, AttributeConstraint.part, Dimension.part, Variable.part, Group.part]

end Group

end

end ProductSpec
