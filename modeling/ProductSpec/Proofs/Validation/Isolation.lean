/-
  A group is isolated from its surroundings. Whatever is in it, all checks outside it have the
  outcomes that they had: two files that differ inside one group have reports that differ below
  its path alone.
-/
import ProductSpec.Proofs.Definition.Shape
import ProductSpec.Proofs.Names
import ProductSpec.Proofs.Report.Entries
import ProductSpec.Proofs.Validation.Places

namespace ProductSpec

namespace NodePath

/-- Where the group is that is reached through groups of the given names, the outermost first. -/
def inGroups (p : NodePath) : List String → NodePath
  | [] => p
  | name :: rest => inGroups (p.child "groups" name) rest

/-- Whether a path goes on from another one. -/
def isBelow (q p : NodePath) : Bool := p.isPrefixOf q && p != q

theorem isBelow_of_child_prefix {p q : NodePath} {kind name : String}
    (h : p.child kind name <+: q) : q.isBelow p = true := by
  have above : p <+: q := (prefix_child p kind name).trans h
  rw [isBelow, Bool.and_eq_true, List.isPrefixOf_iff_prefix, bne_iff_ne]
  exact ⟨above, ne_of_child_prefix h⟩

end NodePath

/-- The outcomes that are not below a path. -/
def outside (p : NodePath) (entries : List Entry) : List Entry :=
  entries.filter fun e => !e.path.isBelow p

theorem outside_pass {p q : NodePath} {entries others : List Entry}
    (same : outside p entries = outside p others) :
    outside p (.pass q :: entries) = outside p (.pass q :: others) := by
  unfold outside at same ⊢
  rw [List.filter_cons, List.filter_cons, same]

theorem outside_append (p : NodePath) (entries others : List Entry) :
    outside p (entries ++ others) = outside p entries ++ outside p others :=
  List.filter_append ..

theorem outside_flatMap {α : Type} (p : NodePath) (items : List α) (checks : α → List Entry) :
    outside p (items.flatMap checks) = items.flatMap fun x => outside p (checks x) :=
  List.filter_flatMap ..

namespace FileGroup

/-- Groups that have one name and differ inside one group at most: in themselves, or in the one
that is reached through first groups of the given names. -/
inductive AgreeOutside : List String → FileGroup → FileGroup → Prop
  | here {g g' : FileGroup} : g.name = g'.name → AgreeOutside [] g g'
  | inside {names : List String} {g h h' : FileGroup} {before after : List FileGroup} :
      g.groups = before ++ h :: after → (∀ s ∈ before, s.name ≠ h.name) →
      AgreeOutside names h h' →
      AgreeOutside (h.name :: names) g { g with groups := before ++ h' :: after }

theorem AgreeOutside.name_eq {names : List String} {g g' : FileGroup}
    (agree : AgreeOutside names g g') : g.name = g'.name := by
  cases agree with
  | here same => exact same
  | inside _ _ _ => rfl

end FileGroup

namespace Group

variable {o : ValidationOptions} {scope : Scope} {path : NodePath}

theorem outside_check_self (g : Group) (file : FileGroup) :
    outside path (g.check o scope path file) = [] := by
  apply List.filter_eq_nil_iff.2
  intro e mem
  obtain ⟨kind, name, below⟩ := below_of_mem_check mem
  simp [NodePath.isBelow_of_child_prefix below]

/-- The checks of a group differ below the group in which the files differ, and nowhere else. -/
theorem outside_check {names : List String} {file file' : FileGroup}
    (agree : file.AgreeOutside names file') (g : Group) :
    outside (path.inGroups names) (g.check o scope path file) =
      outside (path.inGroups names) (g.check o scope path file') := by
  -- The induction follows the names to the groups that differ; there everything found is below.
  induction agree generalizing g scope path with
  | here _ => exact (outside_check_self g _).trans (outside_check_self g _).symm
  | @inside names file inner inner' before after parts first agree ih =>
    have sameNames : (before ++ inner' :: after).map FileGroup.name =
        file.groups.map FileGroup.name := by
      rw [parts, List.map_append, List.map_append, List.map_cons, List.map_cons, agree.name_eq]
    have own : g.checkOwn o scope path { file with groups := before ++ inner' :: after } =
        g.checkOwn o scope path file := rfl
    rw [check_eq_own, check_eq_own, own, sameNames]
    simp only [outside_append, outside_flatMap]
    congr 2
    apply List.flatMap_congr
    intro child _
    -- The groups that differ are found by their name, and only by it.
    by_cases named : child.name = inner.name
    · have found : file.groupNamed? child.name = some inner := by
        rw [named, FileGroup.groupNamed?, parts]
        exact find?_name_append first
      have found' : FileGroup.groupNamed? { file with groups := before ++ inner' :: after }
          child.name = some inner' := by
        rw [named, agree.name_eq]
        exact find?_name_append (agree.name_eq ▸ first)
      unfold checkInner
      rw [found, found', named]
      exact outside_pass (ih child)
    · have same : FileGroup.groupNamed? { file with groups := before ++ inner' :: after }
          child.name = file.groupNamed? child.name := by
        unfold FileGroup.groupNamed?
        rw [parts]
        exact find?_name_replace agree.name_eq named
      unfold checkInner
      rw [same]
      rfl

/-- Two files that differ inside one group have the same outcomes everywhere but below it. -/
theorem validate_outside (d : Dataset) (o : ValidationOptions) {names : List String}
    {file file' : DataFile} (agree : file.AgreeOutside names file') :
    outside (NodePath.root.inGroups names) (d.validate o file).entries =
      outside (NodePath.root.inGroups names) (d.validate o file').entries := by
  unfold validate
  rw [Report.entries_ofEntries, Report.entries_ofEntries]
  exact outside_check agree d

/-- A file with a profile between a group that is not declared and another profile. -/
def aroundProfile (profile : FileGroup) : DataFile :=
  ⟨"around", ∅, [⟨"time", 10, false⟩], [],
    [⟨"station", ∅, [], [], []⟩, profile, ⟨"profile", ∅, [], [], []⟩]⟩

theorem agreeOutside_aroundProfile {profile profile' : FileGroup}
    (named : profile.name = "profile") (same : profile.name = profile'.name) :
    (aroundProfile profile).AgreeOutside ["profile"] (aroundProfile profile') := by
  have first : ∀ s ∈ [(⟨"station", ∅, [], [], []⟩ : FileGroup)], s.name ≠ profile.name := by
    simp [named]
  rw [← named]
  exact .inside rfl first (.here same)

/-- A profile with a variable of its own is told apart from one without, but only below it. -/
theorem validate_outside_aroundProfile : ∃ d,
    Definition.localTime.compileNamed "sounding" .empty = .ok d ∧
      (d.validate ⟨false, .standard⟩ (aroundProfile ⟨"profile", ∅, [], [], []⟩)).entries ≠
        (d.validate ⟨false, .standard⟩ (aroundProfile ⟨"profile", ∅, [⟨"time", 4, false⟩],
          [⟨"wind", .int8, ["time"], ∅⟩], []⟩)).entries ∧
      outside ["root", "groups", "profile"]
          (d.validate ⟨false, .standard⟩ (aroundProfile ⟨"profile", ∅, [], [], []⟩)).entries =
        outside ["root", "groups", "profile"]
          (d.validate ⟨false, .standard⟩ (aroundProfile ⟨"profile", ∅, [⟨"time", 4, false⟩],
            [⟨"wind", .int8, ["time"], ∅⟩], []⟩)).entries :=
  ⟨_, rfl, by decide +kernel, validate_outside _ _ (agreeOutside_aroundProfile rfl rfl)⟩

end Group

end ProductSpec
