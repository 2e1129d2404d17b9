/-
  Files in which siblings have different names, and files that differ in the order of siblings
  alone. By their names the same parts are found in two such files.
-/
import ProductSpec.DataFile.Basic
import ProductSpec.Proofs.Names

namespace ProductSpec.FileGroup

/-- A group of a file in which parts of one kind have different names, at every depth. -/
inductive Distinct : FileGroup → Prop
  | intro {file : FileGroup} (dimensions : (file.dimensions.map FileDimension.name).Nodup)
      (vars : (file.vars.map FileVariable.name).Nodup)
      (groups : (file.groups.map FileGroup.name).Nodup)
      (inner : ∀ g ∈ file.groups, g.Distinct) : Distinct file

theorem Distinct.inner {file g : FileGroup} (h : file.Distinct) (mem : g ∈ file.groups) :
    g.Distinct := by
  cases h with
  | intro _ _ _ inner => exact inner g mem

/-- Groups that differ in the order of dimensions, variables and groups alone, at every depth. -/
inductive Reordered : FileGroup → FileGroup → Prop
  | intro {file file' : FileGroup} {inner : List FileGroup} (name : file.name = file'.name)
      (attributes : file.attributes = file'.attributes)
      (dimensions : file.dimensions.Perm file'.dimensions) (vars : file.vars.Perm file'.vars)
      (each : List.Forall₂ Reordered file.groups inner) (groups : inner.Perm file'.groups) :
      Reordered file file'

namespace Reordered

variable {file file' : FileGroup}

theorem name_eq (h : file.Reordered file') : file.name = file'.name := by
  cases h with
  | intro name => exact name

theorem attributes_eq (h : file.Reordered file') : file.attributes = file'.attributes := by
  cases h with
  | intro _ attributes => exact attributes

theorem dimensions_perm (h : file.Reordered file') : file.dimensions.Perm file'.dimensions := by
  cases h with
  | intro _ _ dimensions => exact dimensions

theorem vars_perm (h : file.Reordered file') : file.vars.Perm file'.vars := by
  cases h with
  | intro _ _ _ vars => exact vars

theorem map_name_eq {groups inner : List FileGroup} (each : List.Forall₂ Reordered groups inner) :
    groups.map FileGroup.name = inner.map FileGroup.name := by
  induction each with
  | nil => rfl
  | cons first _ ih => rw [List.map_cons, List.map_cons, first.name_eq, ih]

theorem groupNames_perm (h : file.Reordered file') :
    (file.groups.map FileGroup.name).Perm (file'.groups.map FileGroup.name) := by
  cases h with
  | intro _ _ _ _ each groups => exact map_name_eq each ▸ groups.map _

theorem dimensionNamed?_eq (h : file.Reordered file') (distinct : file.Distinct) (label : String) :
    file.dimensionNamed? label = file'.dimensionNamed? label := by
  cases distinct with
  | intro dimensions => exact find?_name_perm dimensions h.dimensions_perm label

theorem variableNamed?_eq (h : file.Reordered file') (distinct : file.Distinct) (label : String) :
    file.variableNamed? label = file'.variableNamed? label := by
  cases distinct with
  | intro _ vars => exact find?_name_perm vars h.vars_perm label

/-- A group of a name is in both files or in neither, and differs in the order of parts alone. -/
theorem groupNamed?_rel (h : file.Reordered file') (distinct : file.Distinct) (label : String) :
    (file.groupNamed? label).Rel (fun g g' => g.Distinct ∧ g.Reordered g')
      (file'.groupNamed? label) := by
  cases h with
  | @intro _ _ inner _ _ _ _ each groups =>
    cases distinct with
    | intro _ _ names distinct =>
      have alike : List.Forall₂ (fun g g' : FileGroup => g.Distinct ∧ g.Reordered g')
          file.groups inner := (List.forall₂_and_left _ _).2 ⟨distinct, each⟩
      have found := find?_name_perm (map_name_eq each ▸ names) groups label
      rw [groupNamed?, groupNamed?, ← found]
      exact find?_name_rel (fun _ _ pair => pair.2.name_eq) alike label

end Reordered

end ProductSpec.FileGroup
