/-
  Where the outcomes of checks are, whatever the options: each part of a dataset is checked at its
  own path and below it, so nothing that is found in one part is at a place of another.
-/
import ProductSpec.Proofs.Dataset.Walk
import ProductSpec.Validation.Dataset

namespace ProductSpec

namespace NodePath

theorem prefix_child (p : NodePath) (kind name : String) : p <+: p.child kind name :=
  List.prefix_append _ _

theorem ne_of_child_prefix {p q : NodePath} {kind name : String} (h : p.child kind name <+: q) :
    p ≠ q := by
  rintro rfl
  have lengths := h.length_le
  simp only [child, List.length_append, List.length_cons, List.length_nil] at lengths
  omega

/-- A path is below one child at most. -/
theorem child_unique {p q : NodePath} {kind kind' name name' : String}
    (h : p.child kind name <+: q) (h' : p.child kind' name' <+: q) :
    kind = kind' ∧ name = name' := by
  have lengths : (p.child kind name).length = (p.child kind' name').length := by simp [child]
  exact child_inj.1
    ((List.prefix_of_prefix_length_le h h' (Nat.le_of_eq lengths)).eq_of_length lengths)

end NodePath

variable {o : ValidationOptions} {path : NodePath} {e : Entry}

theorem mem_absent {isRequired : Bool} (h : e ∈ o.absent isRequired path) : e.path = path := by
  unfold ValidationOptions.absent at h
  split at h
  · rw [List.mem_singleton.1 h]
    rfl
  · cases h

theorem path_of_mem_unknown {kind : String} {names declared : List String}
    (h : e ∈ o.unknown path kind names declared) :
    ∃ name, name ∉ declared ∧ e.path = path.child kind name := by
  unfold ValidationOptions.unknown at h
  split at h
  · cases h
  · obtain ⟨name, kept, rfl⟩ := List.mem_map.1 h
    exact ⟨name, by simpa using (List.mem_filter.1 kept).2, rfl⟩

theorem AttributeConstraint.path_of_mem_check {c : AttributeConstraint}
    {actual : NameMap AttributeValue} (h : e ∈ c.check o path actual) :
    e.path = path.child "attributes" c.name := by
  unfold check at h
  split at h
  · rw [List.mem_singleton.1 h, checkValue]
    split <;> split <;> rfl
  · split at h
    · rw [List.mem_singleton.1 h]
      rfl
    · cases h

/-- All outcomes are at parts of one kind, or below them. -/
def OfKind (path : NodePath) (kind : String) (entries : List Entry) : Prop :=
  ∀ e ∈ entries, ∃ name, path.child kind name <+: e.path

theorem OfKind.apart {path p : NodePath} {kind other name : String} {entries : List Entry}
    (h : OfKind path kind entries) (unlike : kind ≠ other) (below : path.child other name <+: p) :
    ∀ e ∈ entries, e.path ≠ p := by
  rintro e mem rfl
  obtain ⟨_, here⟩ := h e mem
  exact unlike (NodePath.child_unique here below).1

/-- No part that is unknown is at or above a place below a declared part. -/
theorem unknown_apart {p : NodePath} {kind name : String} {names declared : List String}
    (known : name ∈ declared) (below : path.child kind name <+: p) :
    ∀ e ∈ o.unknown path kind names declared, e.path ≠ p := by
  rintro e mem rfl
  obtain ⟨other, fresh, here⟩ := path_of_mem_unknown mem
  rw [here] at below
  exact fresh ((NodePath.child_unique below List.prefix_rfl).2 ▸ known)

theorem ofKind_unknown (o : ValidationOptions) (path : NodePath) (kind : String)
    (names declared : List String) : OfKind path kind (o.unknown path kind names declared) := by
  intro e h
  obtain ⟨name, -, here⟩ := path_of_mem_unknown h
  exact ⟨name, here ▸ List.prefix_rfl⟩

theorem ofKind_checkAttributes (o : ValidationOptions) (path : NodePath)
    (constraints : List AttributeConstraint) (actual : NameMap AttributeValue) :
    OfKind path "attributes" (checkAttributes o path constraints actual) := by
  intro e h
  rcases List.mem_append.1 h with h | h
  · obtain ⟨c, -, h⟩ := List.mem_flatMap.1 h
    exact ⟨c.name, AttributeConstraint.path_of_mem_check h ▸ List.prefix_rfl⟩
  · exact ofKind_unknown _ _ _ _ _ e h

theorem Dimension.path_of_mem_check {d : Dimension} {file : FileGroup}
    (h : e ∈ d.check o path file) : e.path = path.child "dimensions" d.name := by
  unfold check at h
  split at h
  · exact mem_absent h
  · split at h <;>
    · rw [List.mem_singleton.1 h]
      rfl

namespace Variable

/-- The places of a variable itself: its path, and below it those of its dimensions. -/
def isOwnPlace (path q : NodePath) : Bool :=
  q == path || q == path ++ ["dimensions"] || q.dropLast == path ++ ["dimensions"]

theorem isOwnPlace_iff {path q : NodePath} :
    isOwnPlace path q = true ↔
      q = path ∨ q = path ++ ["dimensions"] ∨ ∃ name, q = path.child "dimensions" name := by
  have last : q.dropLast = path ++ ["dimensions"] ↔ ∃ name, q = path.child "dimensions" name := by
    constructor
    · intro init
      have filled : q ≠ [] := by
        rintro rfl
        simp at init
      refine ⟨q.getLast filled, ?_⟩
      have split := List.dropLast_append_getLast filled
      rw [init] at split
      exact split.symm.trans (List.append_assoc ..)
    · rintro ⟨name, rfl⟩
      simp [NodePath.child]
  simp [isOwnPlace, last, or_assoc]

theorem isOwnPlace_of_mem_checkSelf {v : Variable} {o : ValidationOptions} {scope : Scope}
    {path : NodePath} {actual : FileVariable} {e : Entry}
    (h : e ∈ v.checkSelf o scope path actual) : isOwnPlace path e.path = true := by
  rw [isOwnPlace_iff]
  simp only [checkSelf, List.mem_append] at h
  rcases h with ((h | h) | h) | h
  · split at h
    · cases h
    · exact .inl (List.mem_singleton.1 h ▸ rfl)
  · split at h
    · cases h
    · exact .inr (.inl (List.mem_singleton.1 h ▸ rfl))
  · obtain ⟨fault, -, rfl⟩ := List.mem_map.1 h
    exact .inr (.inr ⟨fault.1, rfl⟩)
  · split at h
    · exact .inl (List.mem_singleton.1 h ▸ rfl)
    · cases h

theorem prefix_of_isOwnPlace {path q : NodePath} (h : isOwnPlace path q = true) : path <+: q := by
  rcases isOwnPlace_iff.1 h with rfl | rfl | ⟨name, rfl⟩
  · exact List.prefix_rfl
  · exact List.prefix_append _ _
  · exact List.prefix_append _ _

/-- No attribute is at a place of the variable itself. -/
theorem not_isOwnPlace {path q : NodePath} {name : String}
    (h : path.child "attributes" name <+: q) : isOwnPlace path q = false := by
  rw [Bool.eq_false_iff, ne_eq, isOwnPlace_iff]
  obtain ⟨rest, rfl⟩ := h
  simp [NodePath.child]

/-- What is found in a variable is at its path or below. -/
theorem prefix_of_mem_check {v : Variable} {scope : Scope} {file : FileGroup}
    (h : e ∈ v.check o scope path file) : path.child "variables" v.name <+: e.path := by
  unfold check at h
  split at h
  · exact mem_absent h ▸ List.prefix_rfl
  · rcases List.mem_append.1 h with h | h
    · exact prefix_of_isOwnPlace (isOwnPlace_of_mem_checkSelf h)
    · obtain ⟨name, below⟩ := ofKind_checkAttributes _ _ _ _ e h
      exact (NodePath.prefix_child ..).trans below

end Variable

namespace Group

/-- The dimensions of a group and those of the file at the same place. -/
def level (g : Group) (file : FileGroup) : ScopeLevel := ⟨g.dimensions, file.dimensions⟩

/-- The checks of a group inside another one. -/
def checkInner (o : ValidationOptions) (scope : Scope) (path : NodePath) (file : FileGroup)
    (g : Group) : List Entry :=
  let here := path.child "groups" g.name
  match file.groupNamed? g.name with
  | none => o.absent g.info.required here
  | some actual => .pass here :: g.check o scope here actual

theorem checkAll_eq (o : ValidationOptions) (scope : Scope) (path : NodePath) (file : FileGroup)
    (groups : List Group) :
    checkAll o scope path file groups = groups.flatMap (checkInner o scope path file) := by
  induction groups with
  | nil => rfl
  | cons g rest ih =>
    rw [checkAll, ih, List.flatMap_cons]
    rfl

/-- The checks of a group, one kind of part after the other. -/
theorem check_eq (o : ValidationOptions) (scope : Scope) (path : NodePath) (file : FileGroup)
    (g : Group) :
    g.check o scope path file =
      checkAttributes o path g.attributes file.attributes ++
        g.dimensions.flatMap (fun d => d.check o path file) ++
        o.unknown path "dimensions" (file.dimensions.map FileDimension.name)
          (g.dimensions.map Dimension.name) ++
        g.vars.flatMap (fun v => v.check o (g.level file :: scope) path file) ++
        o.unknown path "variables" (file.vars.map FileVariable.name)
          (g.vars.map Variable.name) ++
        g.groups.flatMap (checkInner o (g.level file :: scope) path file) ++
        o.unknown path "groups" (file.groups.map FileGroup.name)
          (g.groups.map Group.name) := by
  obtain ⟨name, info, attributes, dimensions, vars, groups⟩ := g
  rw [check, checkAll_eq]
  rfl

variable {scope : Scope} {file : FileGroup} {g : Group}

/-- The checks of a group itself, those of the groups in it apart. -/
def checkOwn (o : ValidationOptions) (scope : Scope) (path : NodePath) (file : FileGroup)
    (g : Group) : List Entry :=
  checkAttributes o path g.attributes file.attributes ++
    g.dimensions.flatMap (fun d => d.check o path file) ++
    o.unknown path "dimensions" (file.dimensions.map FileDimension.name)
      (g.dimensions.map Dimension.name) ++
    g.vars.flatMap (fun v => v.check o (g.level file :: scope) path file) ++
    o.unknown path "variables" (file.vars.map FileVariable.name) (g.vars.map Variable.name)

theorem check_eq_own (o : ValidationOptions) (scope : Scope) (path : NodePath) (file : FileGroup)
    (g : Group) :
    g.check o scope path file =
      g.checkOwn o scope path file ++
        g.groups.flatMap (checkInner o (g.level file :: scope) path file) ++
        o.unknown path "groups" (file.groups.map FileGroup.name) (g.groups.map Group.name) :=
  check_eq o scope path file g

theorem ofKind_dimensions (o : ValidationOptions) (path : NodePath) (file : FileGroup)
    (g : Group) : OfKind path "dimensions" (g.dimensions.flatMap fun d => d.check o path file) := by
  intro e h
  obtain ⟨d, -, h⟩ := List.mem_flatMap.1 h
  exact ⟨d.name, Dimension.path_of_mem_check h ▸ List.prefix_rfl⟩

theorem ofKind_vars (o : ValidationOptions) (scope : Scope) (path : NodePath) (file : FileGroup)
    (g : Group) : OfKind path "variables" (g.vars.flatMap fun v => v.check o scope path file) := by
  intro e h
  obtain ⟨v, -, h⟩ := List.mem_flatMap.1 h
  exact ⟨v.name, Variable.prefix_of_mem_check h⟩

theorem kind_of_mem_checkOwn (h : e ∈ g.checkOwn o scope path file) :
    ∃ kind name, kind ≠ "groups" ∧ path.child kind name <+: e.path := by
  rw [checkOwn, List.mem_append, List.mem_append, List.mem_append, List.mem_append] at h
  rcases h with (((h | h) | h) | h) | h
  · obtain ⟨name, below⟩ := ofKind_checkAttributes _ _ _ _ e h
    exact ⟨"attributes", name, by decide, below⟩
  · obtain ⟨name, below⟩ := ofKind_dimensions _ _ _ _ e h
    exact ⟨"dimensions", name, by decide, below⟩
  · obtain ⟨name, below⟩ := ofKind_unknown _ _ _ _ _ e h
    exact ⟨"dimensions", name, by decide, below⟩
  · obtain ⟨name, below⟩ := ofKind_vars _ _ _ _ _ e h
    exact ⟨"variables", name, by decide, below⟩
  · obtain ⟨name, below⟩ := ofKind_unknown _ _ _ _ _ e h
    exact ⟨"variables", name, by decide, below⟩

/-- An outcome in a group is below its path, or it comes from a group in it. -/
theorem mem_check_cases (h : e ∈ g.check o scope path file) :
    (∃ kind name, path.child kind name <+: e.path) ∨
      ∃ child ∈ g.groups, e ∈ child.checkInner o (g.level file :: scope) path file := by
  rw [check_eq_own, List.mem_append, List.mem_append, List.mem_flatMap] at h
  rcases h with (h | inner) | h
  · obtain ⟨kind, name, -, below⟩ := kind_of_mem_checkOwn h
    exact .inl ⟨kind, name, below⟩
  · exact .inr inner
  · obtain ⟨name, -, here⟩ := path_of_mem_unknown h
    exact .inl ⟨"groups", name, here ▸ List.prefix_rfl⟩

/-- What is found in a group is at its path or below. -/
theorem prefix_of_mem_checkInner (h : e ∈ g.checkInner o scope path file) :
    path.child "groups" g.name <+: e.path := by
  induction g using induction generalizing scope path file with
  | step g ih =>
    unfold checkInner at h
    split at h
    · exact mem_absent h ▸ List.prefix_rfl
    · rcases List.mem_cons.1 h with rfl | h
      · exact List.prefix_rfl
      · rcases mem_check_cases h with ⟨kind, name, below⟩ | ⟨child, mem, inner⟩
        · exact (NodePath.prefix_child ..).trans below
        · exact (NodePath.prefix_child ..).trans (ih child mem inner)

theorem ofKind_groups (o : ValidationOptions) (scope : Scope) (path : NodePath)
    (file : FileGroup) (g : Group) :
    OfKind path "groups" (g.groups.flatMap (checkInner o scope path file)) := by
  intro e h
  obtain ⟨child, -, h⟩ := List.mem_flatMap.1 h
  exact ⟨child.name, prefix_of_mem_checkInner h⟩

/-- What the checks inside a group find is below its path. -/
theorem below_of_mem_check (h : e ∈ g.check o scope path file) :
    ∃ kind name, path.child kind name <+: e.path := by
  rcases mem_check_cases h with below | ⟨child, -, inner⟩
  · exact below
  · exact ⟨"groups", child.name, prefix_of_mem_checkInner inner⟩

end Group

end ProductSpec
