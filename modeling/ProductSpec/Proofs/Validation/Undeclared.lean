/-
  The parts of a file that a dataset does not name, told from the file: of each kind, every part
  without a declaration, and whatever is undeclared inside the parts that have one. Of the parts
  with one name only the first is looked into, and nothing inside an undeclared part counts.
-/
import ProductSpec.Proofs.Names
import ProductSpec.Proofs.Validation.Account
import ProductSpec.Proofs.Validation.Options
import Mathlib.Data.List.Perm.Basic

namespace ProductSpec

namespace NodePath

/-- What is undeclared among the stored parts of one kind: each part without a declaration, and
what is undeclared inside a part with one, unless an earlier part has the same name. -/
def undeclaredAmong {α β : Type} (name : α → String) (declaration? : String → Option β)
    (inside : NodePath → β → α → List NodePath) (path : NodePath) (kind : String) :
    (earlier : List String) → List α → List NodePath
  | _, [] => []
  | earlier, x :: rest =>
    let here := path.child kind (name x)
    (match declaration? (name x) with
      | none => [here]
      | some declared => if name x ∈ earlier then [] else inside here declared x) ++
    undeclaredAmong name declaration? inside path kind (name x :: earlier) rest

end NodePath

/-- The undeclared attributes of a stored variable. -/
def FileVariable.undeclared (path : NodePath) (v : Variable) (stored : FileVariable) :
    List NodePath :=
  path.undeclared "attributes" stored.attributes.names
    (v.attributes.map AttributeConstraint.name)

namespace FileGroup

mutual

/-- The paths of what a group, which is declared as `g`, has and the declaration does not name. -/
def undeclared (path : NodePath) (g : Group) : FileGroup → List NodePath
  | ⟨_, attributes, dimensions, vars, groups⟩ =>
    path.undeclared "attributes" attributes.names (g.attributes.map AttributeConstraint.name) ++
      path.undeclared "dimensions" (dimensions.map FileDimension.name)
        (g.dimensions.map Dimension.name) ++
      path.undeclaredAmong FileVariable.name (fun n => g.vars.find? fun v => v.name == n)
        FileVariable.undeclared "variables" [] vars ++
      undeclaredInGroups path g [] groups

def undeclaredInGroups (path : NodePath) (g : Group) (earlier : List String) :
    List FileGroup → List NodePath
  | [] => []
  | actual :: rest =>
    let here := path.child "groups" actual.name
    (match g.groups.find? fun h => h.name == actual.name with
      | none => [here]
      | some declared => if actual.name ∈ earlier then [] else undeclared here declared actual) ++
    undeclaredInGroups path g (actual.name :: earlier) rest

end

theorem undeclaredInGroups_eq (path : NodePath) (g : Group) (earlier : List String)
    (groups : List FileGroup) :
    undeclaredInGroups path g earlier groups =
      path.undeclaredAmong FileGroup.name (fun n => g.groups.find? fun h => h.name == n)
        undeclared "groups" earlier groups := by
  induction groups generalizing earlier with
  | nil => rfl
  | cons actual rest ih =>
    rw [undeclaredInGroups, ih, NodePath.undeclaredAmong]
    cases g.groups.find? fun h => h.name == actual.name <;> rfl

end FileGroup

/-- What one of the items adds comes apart from what all of them have. -/
theorem flatMap_perm_of_mem {β γ : Type} {name : β → String} {items : List β} {f g : β → List γ}
    {b : β} {added : List γ} (distinct : (items.map name).Nodup) (mem : b ∈ items)
    (own : f b = added ++ g b) (others : ∀ b', name b' ≠ name b → f b' = g b') :
    (items.flatMap f).Perm (added ++ items.flatMap g) := by
  induction items with
  | nil => cases mem
  | cons first rest ih =>
    obtain ⟨fresh, distinct⟩ := List.nodup_cons.1 distinct
    rw [List.flatMap_cons, List.flatMap_cons]
    rcases List.mem_cons.1 mem with rfl | mem
    · have same : ∀ b' ∈ rest, f b' = g b' := fun b' isIn =>
        others b' fun same => fresh (same ▸ List.mem_map_of_mem isIn)
      rw [own, List.flatMap_congr same, List.append_assoc]
    · rw [others first fun same => fresh (same ▸ List.mem_map_of_mem mem)]
      exact ((ih distinct mem).append_left _).trans (List.perm_append_comm_assoc ..)

namespace NodePath

variable {α β : Type}

/-- What is undeclared inside the first stored part with the name of a declaration, unless it has
been met before. -/
def undeclaredInside (name : α → String) (declaredName : β → String)
    (inside : NodePath → β → α → List NodePath) (path : NodePath) (kind : String)
    (earlier : List String) (stored : List α) (b : β) : List NodePath :=
  if declaredName b ∈ earlier then [] else
    (stored.find? fun x => name x == declaredName b).elim []
      (inside (path.child kind (declaredName b)) b)

/-- The stored parts and the declarations can both be gone through: either way each declaration
meets the first stored part with its name. -/
theorem undeclaredAmong_perm (name : α → String) {declaredName : β → String} {declared : List β}
    (distinct : (declared.map declaredName).Nodup) (inside : NodePath → β → α → List NodePath)
    (path : NodePath) (kind : String) (stored : List α) (earlier : List String) :
    (path.undeclaredAmong name (fun n => declared.find? fun b => declaredName b == n) inside kind
        earlier stored).Perm
      (declared.flatMap (path.undeclaredInside name declaredName inside kind earlier stored) ++
        path.undeclared kind (stored.map name) (declared.map declaredName)) := by
  induction stored generalizing earlier with
  | nil =>
    have none : declared.flatMap (path.undeclaredInside name declaredName inside kind earlier []) =
        [] :=
      List.flatMap_eq_nil_iff.2 fun b _ => ite_self _
    rw [none]
    exact .refl _
  | cons x rest ih =>
    -- A declaration of another name meets the same part with and without the first one.
    have others : ∀ b, declaredName b ≠ name x →
        path.undeclaredInside name declaredName inside kind earlier (x :: rest) b =
          path.undeclaredInside name declaredName inside kind (name x :: earlier) rest b := by
      intro b unlike
      rw [undeclaredInside, undeclaredInside, List.find?_cons_of_neg (by simpa using unlike.symm)]
      simp only [List.mem_cons, unlike, false_or]
    have step := ih (name x :: earlier)
    rw [undeclaredAmong]
    cases found : declared.find? fun b => declaredName b == name x with
    | none =>
      have fresh : name x ∉ declared.map declaredName := by
        rw [← isSome_find?_name, found]
        exact Bool.false_ne_true
      rw [List.flatMap_congr fun b mem =>
          others b fun same => fresh (same ▸ List.mem_map_of_mem mem),
        undeclared, List.map_cons, List.filter_cons_of_pos (by simpa using fresh), List.map_cons]
      exact (step.cons _).trans List.perm_middle.symm
    | some b =>
      obtain ⟨mem, label⟩ := of_find?_name found
      have named : path.undeclared kind ((x :: rest).map name) (declared.map declaredName) =
          path.undeclared kind (rest.map name) (declared.map declaredName) := by
        rw [undeclared, List.map_cons, List.filter_cons_of_neg (by simpa using ⟨b, mem, label⟩)]
        rfl
      have own : path.undeclaredInside name declaredName inside kind earlier (x :: rest) b =
          (if name x ∈ earlier then [] else inside (path.child kind (name x)) b x) ++
            path.undeclaredInside name declaredName inside kind (name x :: earlier) rest b := by
        simp [undeclaredInside, label]
      rw [named]
      refine (step.append_left _).trans ?_
      rw [← List.append_assoc]
      exact (flatMap_perm_of_mem distinct mem own (label ▸ others)).symm.append_right _

end NodePath

open ValidationOptions

/-- What is undeclared inside the variable of a file that a declaration meets. -/
def Variable.undeclaredIn (path : NodePath) (file : FileGroup) (v : Variable) : List NodePath :=
  (file.variableNamed? v.name).elim []
    (FileVariable.undeclared (path.child "variables" v.name) v)

/-- What is undeclared inside the group of a file that a declaration meets. -/
def Group.undeclaredIn (path : NodePath) (file : FileGroup) (g : Group) : List NodePath :=
  (file.groupNamed? g.name).elim [] (FileGroup.undeclared (path.child "groups" g.name) g)

namespace FileGroup

theorem undeclared_perm {g : Group} {outer : List String} (wf : g.WellFormed outer)
    (path : NodePath) (file : FileGroup) :
    (file.undeclared path g).Perm
      (path.undeclared "attributes" file.attributes.names
          (g.attributes.map AttributeConstraint.name) ++
        path.undeclared "dimensions" (file.dimensions.map FileDimension.name)
          (g.dimensions.map Dimension.name) ++
        (g.vars.flatMap (Variable.undeclaredIn path file) ++
          path.undeclared "variables" (file.vars.map FileVariable.name)
            (g.vars.map Variable.name)) ++
        (g.groups.flatMap (Group.undeclaredIn path file) ++
          path.undeclared "groups" (file.groups.map FileGroup.name)
            (g.groups.map Group.name))) := by
  have vars := NodePath.undeclaredAmong_perm FileVariable.name wf.vars.distinct
    FileVariable.undeclared path "variables" file.vars []
  have groups := NodePath.undeclaredAmong_perm FileGroup.name wf.groups.distinct
    undeclared path "groups" file.groups []
  obtain ⟨name, attributes, dimensions, stored, inner⟩ := file
  rw [undeclared, undeclaredInGroups_eq]
  exact (vars.append_left _).append groups

end FileGroup

section

variable (p : SeverityPolicy)

/-- Checks that do not change when unknown parts are allowed find none. -/
theorem filter_isUnknown_eq_nil {entries : List Entry}
    (same : entries = (ValidationOptions.tolerant p).present entries) :
    entries.filter Entry.isUnknown = [] := by
  rw [same, List.filter_eq_nil_iff]
  intro e mem
  obtain ⟨e', kept, rfl⟩ := List.mem_map.1 mem
  simpa [ValidationOptions.tolerant, Entry.isUnknown_judged] using (List.mem_filter.1 kept).2

theorem filter_absent (isRequired : Bool) (path : NodePath) :
    ((strict p).absent isRequired path).filter Entry.isUnknown = [] :=
  filter_isUnknown_eq_nil p (present_absent (o := .tolerant p) isRequired path).symm

theorem filter_unknown (path : NodePath) (kind : String) (names declared : List String) :
    ((strict p).unknown path kind names declared).filter Entry.isUnknown =
      (path.undeclared kind names declared).map (strict p).notInDefinition := by
  rw [unknown_eq rfl, List.filter_eq_self]
  intro e mem
  obtain ⟨here, -, rfl⟩ := List.mem_map.1 mem
  rfl

theorem filter_checkAttributes (path : NodePath) (constraints : List AttributeConstraint)
    (actual : NameMap AttributeValue) :
    (checkAttributes (strict p) path constraints actual).filter Entry.isUnknown =
      (path.undeclared "attributes" actual.names (constraints.map AttributeConstraint.name)).map
        (strict p).notInDefinition := by
  have none : (constraints.flatMap fun c => c.check (strict p) path actual).filter
      Entry.isUnknown = [] := by
    rw [List.filter_flatMap, List.flatMap_eq_nil_iff]
    intro c _
    exact filter_isUnknown_eq_nil p (c.check_eq_present (.tolerant p) p path actual)
  rw [checkAttributes, List.filter_append, none, List.nil_append, filter_unknown]

theorem Variable.filter_check (v : Variable) (scope : Scope) (path : NodePath)
    (file : FileGroup) :
    (v.check (strict p) scope path file).filter Entry.isUnknown =
      (v.undeclaredIn path file).map (strict p).notInDefinition := by
  unfold check undeclaredIn
  cases file.variableNamed? v.name with
  | none => exact filter_absent p _ _
  | some stored =>
    have own := filter_isUnknown_eq_nil p
      (v.checkSelf_eq_present (.tolerant p) p scope (path.child "variables" v.name) stored)
    dsimp only
    rw [checkStored, List.filter_append, filter_checkAttributes]
    exact congrArg (· ++ _) own

namespace Group

/-- Of a file that is checked strictly, what is found unknown is exactly what is undeclared. -/
theorem WellFormed.filter_check {g : Group} {outer : List String} (wf : g.WellFormed outer)
    (scope : Scope) (path : NodePath) (file : FileGroup) :
    ((g.check (strict p) scope path file).filter Entry.isUnknown).Perm
      ((file.undeclared path g).map (strict p).notInDefinition) := by
  induction g using induction generalizing outer scope path file with
  | step g ih =>
    have dimensions : (g.dimensions.flatMap fun d => d.check (strict p) path file).filter
        Entry.isUnknown = [] := by
      rw [List.filter_flatMap, List.flatMap_eq_nil_iff]
      intro d _
      exact filter_isUnknown_eq_nil p (d.check_eq_present (.tolerant p) p path file)
    have vars : (g.vars.flatMap fun v => v.check (strict p) (g.level file :: scope) path
        file).filter Entry.isUnknown =
          (g.vars.flatMap (Variable.undeclaredIn path file)).map (strict p).notInDefinition := by
      rw [List.filter_flatMap, List.map_flatMap]
      exact List.flatMap_congr fun v _ => v.filter_check p _ path file
    have groups : ((g.groups.flatMap (checkInner (strict p) (g.level file :: scope) path
        file)).filter Entry.isUnknown).Perm
          ((g.groups.flatMap (undeclaredIn path file)).map (strict p).notInDefinition) := by
      rw [List.filter_flatMap, List.map_flatMap]
      refine List.Perm.flatMap_left _ fun h mem => ?_
      unfold checkInner undeclaredIn
      cases file.groupNamed? h.name with
      | none => exact .of_eq (filter_absent p _ _)
      | some actual => exact ih h mem (wf.inner mem) _ _ actual
    rw [check_eq]
    simp only [List.filter_append, filter_checkAttributes, filter_unknown, dimensions, vars]
    refine List.Perm.trans ?_ ((FileGroup.undeclared_perm wf path file).map _).symm
    simp only [List.map_append, List.append_nil, List.append_assoc]
    exact .append_left _ (.append_left _ (.append_left _ (.append_left _ (groups.append_right _))))

end Group

end

namespace Group

/-- The kinds and names of what a group declares. -/
def declaredKeys (g : Group) : List (String × String) :=
  g.attributes.map (fun c => ("attributes", c.name)) ++
    g.dimensions.map (fun d => ("dimensions", d.name)) ++
    g.vars.map (fun v => ("variables", v.name)) ++ g.groups.map (fun h => ("groups", h.name))

end Group

namespace NodePath

variable {path q : NodePath} {kind : String} {names declared : List String}

theorem mem_undeclared (h : q ∈ path.undeclared kind names declared) :
    ∃ name, name ∉ declared ∧ q = path.child kind name := by
  obtain ⟨name, mem, rfl⟩ := List.mem_map.1 h
  exact ⟨name, by simpa using (List.mem_filter.1 mem).2, rfl⟩

end NodePath

theorem Variable.prefix_of_mem_undeclaredIn {v : Variable} {path q : NodePath} {file : FileGroup}
    (h : q ∈ v.undeclaredIn path file) : path.child "variables" v.name <+: q := by
  unfold undeclaredIn at h
  cases found : file.variableNamed? v.name with
  | none => simp [found] at h
  | some stored =>
    rw [found] at h
    obtain ⟨name, -, rfl⟩ := NodePath.mem_undeclared h
    exact NodePath.prefix_child ..

namespace FileGroup

variable {g : Group} {outer : List String} {path q : NodePath} {file : FileGroup}

/-- What is undeclared is a part without a declaration, or inside a part with one. -/
theorem of_mem_undeclared (wf : g.WellFormed outer) (h : q ∈ file.undeclared path g) :
    (∃ kind name, (kind, name) ∉ g.declaredKeys ∧ q = path.child kind name) ∨
      (∃ v ∈ g.vars, q ∈ v.undeclaredIn path file) ∨
      ∃ child ∈ g.groups, q ∈ child.undeclaredIn path file := by
  rw [(undeclared_perm wf path file).mem_iff] at h
  simp only [List.mem_append, List.mem_flatMap] at h
  rcases h with ((h | h) | h | h) | h | h
  · obtain ⟨name, fresh, rfl⟩ := NodePath.mem_undeclared h
    exact .inl ⟨_, name, by simpa [Group.declaredKeys] using fresh, rfl⟩
  · obtain ⟨name, fresh, rfl⟩ := NodePath.mem_undeclared h
    exact .inl ⟨_, name, by simpa [Group.declaredKeys] using fresh, rfl⟩
  · exact .inr (.inl h)
  · obtain ⟨name, fresh, rfl⟩ := NodePath.mem_undeclared h
    exact .inl ⟨_, name, by simpa [Group.declaredKeys] using fresh, rfl⟩
  · exact .inr (.inr h)
  · obtain ⟨name, fresh, rfl⟩ := NodePath.mem_undeclared h
    exact .inl ⟨_, name, by simpa [Group.declaredKeys] using fresh, rfl⟩

/-- What is undeclared in a group is below the path of the group. -/
theorem prefix_of_mem_undeclared (wf : g.WellFormed outer) (h : q ∈ file.undeclared path g) :
    path <+: q := by
  induction g using Group.induction generalizing outer path file with
  | step g ih =>
    rcases of_mem_undeclared wf h with ⟨kind, name, -, rfl⟩ | ⟨v, -, h⟩ | ⟨child, mem, h⟩
    · exact NodePath.prefix_child ..
    · exact (NodePath.prefix_child ..).trans (Variable.prefix_of_mem_undeclaredIn h)
    · unfold Group.undeclaredIn at h
      cases found : file.groupNamed? child.name with
      | none => simp [found] at h
      | some actual =>
        rw [found] at h
        exact (NodePath.prefix_child ..).trans (ih child mem (wf.inner mem) h)

end FileGroup

theorem Group.WellFormed.prefix_of_mem_undeclaredIn {g : Group} {outer : List String}
    (wf : g.WellFormed outer) {path q : NodePath} {file : FileGroup}
    (h : q ∈ g.undeclaredIn path file) : path.child "groups" g.name <+: q := by
  unfold undeclaredIn at h
  cases found : file.groupNamed? g.name with
  | none => simp [found] at h
  | some actual =>
    rw [found] at h
    exact FileGroup.prefix_of_mem_undeclared wf h

namespace Active

variable {d : Dataset} {file : DataFile} {path q : NodePath} {g : Group} {actual : FileGroup}
  {scope : Scope}

/-- What is undeclared below the path of a group that is reached is undeclared in that group. -/
theorem mem_undeclared (h : Active d file path g actual scope) (wf : d.WellFormed [])
    (mem : q ∈ file.undeclared NodePath.root d) (below : path <+: q) :
    q ∈ actual.undeclared path g := by
  induction h with
  | root => exact mem
  | @group path g child actual inner scope active isIn found ih =>
    obtain ⟨outer, wf⟩ := active.wellFormed wf
    have here := ih ((NodePath.prefix_child ..).trans below)
    rcases FileGroup.of_mem_undeclared wf here with
      ⟨kind, name, fresh, rfl⟩ | ⟨v, -, inside⟩ | ⟨other, isIn', inside⟩
    · obtain ⟨rfl, rfl⟩ := NodePath.child_unique below List.prefix_rfl
      exact absurd (List.mem_append_right _ (List.mem_map_of_mem isIn)) fresh
    · have kinds := (NodePath.child_unique below (Variable.prefix_of_mem_undeclaredIn inside)).1
      exact absurd kinds (by decide)
    · have names := (NodePath.child_unique below
        ((wf.inner isIn').prefix_of_mem_undeclaredIn inside)).2
      obtain rfl := List.inj_on_of_nodup_map wf.groups.distinct isIn isIn' names
      rw [Group.undeclaredIn, found] at inside
      exact inside

/-- Nothing inside an undeclared part is undeclared. -/
theorem eq_of_undeclared (h : Active d file path g actual scope) (wf : d.WellFormed [])
    (mem : q ∈ file.undeclared NodePath.root d) {kind name : String}
    (fresh : (kind, name) ∉ g.declaredKeys) (below : path.child kind name <+: q) :
    q = path.child kind name := by
  obtain ⟨outer, wfHere⟩ := h.wellFormed wf
  have here := h.mem_undeclared wf mem ((NodePath.prefix_child ..).trans below)
  rcases FileGroup.of_mem_undeclared wfHere here with
    ⟨kind', name', -, rfl⟩ | ⟨v, isIn, inside⟩ | ⟨child, isIn, inside⟩
  · obtain ⟨rfl, rfl⟩ := NodePath.child_unique below List.prefix_rfl
    rfl
  · obtain ⟨rfl, rfl⟩ := NodePath.child_unique below (Variable.prefix_of_mem_undeclaredIn inside)
    refine absurd ?_ fresh
    exact List.mem_append_left _ (List.mem_append_right _ (List.mem_map_of_mem isIn))
  · obtain ⟨rfl, rfl⟩ := NodePath.child_unique below
      ((wfHere.inner isIn).prefix_of_mem_undeclaredIn inside)
    exact absurd (List.mem_append_right _ (List.mem_map_of_mem isIn)) fresh

end Active

/-- The options change what is shown of the checks and nothing else: the policy sets severities,
and allowing unknown parts leaves out their findings. Of a compiled dataset these are one for each
undeclared part of the file and none for what is inside such a part. -/
theorem Group.validate_presented (d : Dataset) (file : DataFile) :
    (∀ o, ∀ f ∈ (d.validate o file).diagnostics, f.severity = o.policy.severity f.category) ∧
    (∀ allowed policy other,
      d.validate ⟨allowed, policy⟩ file = (d.validate ⟨allowed, other⟩ file).judged policy) ∧
    (∀ policy, d.validate ⟨true, policy⟩ file = (d.validate ⟨false, policy⟩ file).known) ∧
    ∀ (definition : Definition) name defaults, definition.compileNamed name defaults = .ok d →
      ∀ policy,
        ((d.validate ⟨false, policy⟩ file).entries.filter Entry.isUnknown).Perm
          ((file.undeclared NodePath.root d).map (strict policy).notInDefinition) ∧
        ∀ path g actual scope, Active d file path g actual scope →
          ∀ kind name, (kind, name) ∉ g.declaredKeys →
            ∀ e ∈ (d.validate ⟨false, policy⟩ file).entries, e.isUnknown = true →
              path.child kind name <+: e.path → e.path = path.child kind name := by
  refine ⟨fun o f => severity_of_mem_validate d file, validate_judged d file,
    validate_known d file, fun definition name defaults h policy => ?_⟩
  have wf : d.WellFormed [] := (Section.of_compile definition.body h).2.2
  have exactly := wf.filter_check policy [] NodePath.root file
  rw [validate, Report.entries_ofEntries]
  refine ⟨exactly, fun path g actual scope active kind name fresh e mem unknown below => ?_⟩
  obtain ⟨q, isIn, rfl⟩ := List.mem_map.1 (exactly.mem_iff.1 (List.mem_filter.2 ⟨mem, unknown⟩))
  exact active.eq_of_undeclared wf isIn fresh below

/-- A file for the nested definition with a group that has no declaration, and with a second group
of a name that has one. -/
def cluttered : DataFile :=
  ⟨"cluttered", .ofList [("note", .scalar (.str "spare"))], [⟨"time", 4, true⟩], [],
    [⟨"profile", ∅, [⟨"depth", 2, false⟩], [], []⟩, ⟨"profile", ∅, [⟨"span", 3, false⟩], [], []⟩,
      ⟨"extra", ∅, [⟨"depth", 2, false⟩], [], []⟩]⟩

theorem Group.validate_presented_cluttered : ∃ dataset,
    Definition.nested.compileNamed "sounding" .empty = .ok dataset ∧
      ((dataset.validate ⟨false, .standard⟩ cluttered).entries.filter Entry.isUnknown).Perm
        (List.map (strict .standard).notInDefinition
          [["root", "attributes", "note"], ["root", "groups", "profile", "dimensions", "depth"],
            ["root", "groups", "extra"]]) :=
  ⟨_, rfl, ((Group.validate_presented _ cluttered).2.2.2 .nested "sounding" .empty rfl .standard).1⟩

end ProductSpec
