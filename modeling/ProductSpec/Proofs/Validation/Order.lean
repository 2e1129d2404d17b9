/-
  Reports do not depend on the order in which a file declares its parts. The dataset gives the
  order of the checks, and what they look at in the file they find by name. Only what the dataset
  does not name is told in the order of the file.
-/
import ProductSpec.Proofs.DataFile.Siblings
import ProductSpec.Proofs.Definition.Shape
import ProductSpec.Proofs.Validation.Options
import ProductSpec.Proofs.Validation.Scope

namespace ProductSpec

/-- The same outcomes in the same order, but that the unknown parts of one kind in one container
may change places among themselves. -/
inductive SameButUnknown : List Entry → List Entry → Prop
  | nil : SameButUnknown [] []
  | cons (e : Entry) {entries entries' : List Entry} :
      SameButUnknown entries entries' → SameButUnknown (e :: entries) (e :: entries')
  | unknown {path : NodePath} {kind : String} {found found' entries entries' : List Entry} :
      (∀ e ∈ found, e.isUnknown = true ∧ ∃ name, e.path = path.child kind name) →
      found.Perm found' → SameButUnknown entries entries' →
      SameButUnknown (found ++ entries) (found' ++ entries')

namespace SameButUnknown

variable {entries entries' others others' : List Entry}

theorem refl (entries : List Entry) : SameButUnknown entries entries := by
  induction entries with
  | nil => exact .nil
  | cons e _ ih => exact .cons e ih

theorem append (h : SameButUnknown entries entries') (h' : SameButUnknown others others') :
    SameButUnknown (entries ++ others) (entries' ++ others') := by
  induction h with
  | nil => exact h'
  | cons e _ ih => exact .cons e ih
  | unknown isUnknown perm _ ih =>
    rw [List.append_assoc, List.append_assoc]
    exact .unknown isUnknown perm ih

theorem flatMap {α : Type} {items : List α} {checks checks' : α → List Entry}
    (h : ∀ x ∈ items, SameButUnknown (checks x) (checks' x)) :
    SameButUnknown (items.flatMap checks) (items.flatMap checks') := by
  induction items with
  | nil => exact .nil
  | cons x rest ih =>
    rw [List.forall_mem_cons] at h
    exact (h.1).append (ih h.2)

/-- What is not about unknown parts is the same. -/
theorem filter_eq (h : SameButUnknown entries entries') :
    (entries.filter fun e => !e.isUnknown) = entries'.filter fun e => !e.isUnknown := by
  induction h with
  | nil => rfl
  | cons e _ ih => rw [List.filter_cons, List.filter_cons, ih]
  | @unknown _ _ found found' _ _ isUnknown perm _ ih =>
    have none : (found.filter fun e => !e.isUnknown) = [] :=
      List.filter_eq_nil_iff.2 fun e mem => by simp [(isUnknown e mem).1]
    have none' : (found'.filter fun e => !e.isUnknown) = [] :=
      List.filter_eq_nil_iff.2 fun e mem => by simp [(isUnknown e (perm.mem_iff.2 mem)).1]
    rw [List.filter_append, List.filter_append, none, none', ih]

end SameButUnknown

namespace Report

theorem foldl_add_unknown {entries : List Entry} (all : ∀ e ∈ entries, e.isUnknown = true)
    (r : Report) :
    (entries.foldl add r).passed = r.passed ∧
      (entries.foldl add r).diagnostics.length = r.diagnostics.length + entries.length := by
  induction entries generalizing r with
  | nil => exact ⟨rfl, rfl⟩
  | cons e rest ih =>
    obtain ⟨first, others⟩ := List.forall_mem_cons.1 all
    cases e with
    | pass path => cases first
    | finding d =>
      obtain ⟨passed, count⟩ := ih others (r.push d)
      have pushed : (r.push d).diagnostics.length = r.diagnostics.length + 1 :=
        List.length_append
      refine ⟨passed, count.trans ?_⟩
      rw [pushed, List.length_cons]
      omega

/-- The same checks pass, each behind as many findings. -/
theorem passed_eq {entries entries' : List Entry} (h : SameButUnknown entries entries') :
    (ofEntries entries).passed = (ofEntries entries').passed := by
  -- How many findings were made before counts as well, so both reports are general.
  suffices same : ∀ r r' : Report, r.passed = r'.passed →
      r.diagnostics.length = r'.diagnostics.length →
      (entries.foldl add r).passed = (entries'.foldl add r').passed from same _ _ rfl rfl
  induction h with
  | nil => exact fun _ _ passed _ => passed
  | cons e _ ih =>
    intro r r' passed count
    refine ih (r.add e) (r'.add e) ?_ ?_
    · cases e <;> simp [add, pass, push, passed, count]
    · cases e <;> simp [add, pass, push, count]
  | unknown isUnknown perm _ ih =>
    intro r r' passed count
    obtain ⟨same, length⟩ := foldl_add_unknown (fun e mem => (isUnknown e mem).1) r
    obtain ⟨same', length'⟩ :=
      foldl_add_unknown (fun e mem => (isUnknown e (perm.mem_iff.2 mem)).1) r'
    rw [List.foldl_append, List.foldl_append]
    refine ih _ _ ?_ ?_
    · rw [same, same', passed]
    · rw [length, length', count, perm.length_eq]

end Report

section

variable {o : ValidationOptions} {path : NodePath}

theorem sameButUnknown_unknown {names names' : List String} (perm : names.Perm names')
    (kind : String) (declared : List String) :
    SameButUnknown (o.unknown path kind names declared)
      (o.unknown path kind names' declared) := by
  have alike : (o.unknown path kind names declared).Perm
      (o.unknown path kind names' declared) := by
    unfold ValidationOptions.unknown
    split
    · exact .refl _
    · exact (perm.filter _).map _
  have all : ∀ e ∈ o.unknown path kind names declared,
      e.isUnknown = true ∧ ∃ name, e.path = path.child kind name := by
    intro e mem
    obtain ⟨name, -, here⟩ := path_of_mem_unknown mem
    exact ⟨ValidationOptions.isUnknown_of_mem_unknown mem, name, here⟩
  simpa using SameButUnknown.unknown all alike .nil

theorem Variable.check_eq {v : Variable} {scope scope' : Scope}
    (alike : List.Forall₂ ScopeLevel.Alike scope scope') {file file' : FileGroup}
    (found : file.variableNamed? v.name = file'.variableNamed? v.name) :
    v.check o scope path file = v.check o scope' path file' := by
  have faults : v.dimensionFaults scope = v.dimensionFaults scope' := by
    funext actual
    unfold dimensionFaults
    simp only [Scope.fault?_eq alike]
  unfold check checkStored checkSelf
  rw [found, faults]

namespace Group

/-- The checks of a group do not depend on the order of parts, here or around. -/
theorem sameButUnknown_check (g : Group) {scope scope' : Scope} {file file' : FileGroup}
    (alike : List.Forall₂ ScopeLevel.Alike scope scope') (distinct : file.Distinct)
    (reordered : file.Reordered file') :
    SameButUnknown (g.check o scope path file) (g.check o scope' path file') := by
  induction g using induction generalizing scope scope' path file file' with
  | step g ih =>
    have dimensions := reordered.dimensionNamed?_eq distinct
    have here : (g.level file).Alike (g.level file') := ⟨fun _ => rfl, dimensions⟩
    have inner := List.Forall₂.cons here alike
    rw [check_eq, check_eq, ← reordered.attributes_eq]
    refine .append (.append (.append (.append (.append (.append (.refl _) ?_) ?_) ?_) ?_) ?_) ?_
    · apply SameButUnknown.flatMap
      intro d _
      rw [Dimension.check, dimensions d.name]
      exact .refl _
    · exact sameButUnknown_unknown (reordered.dimensions_perm.map _) _ _
    · apply SameButUnknown.flatMap
      intro v _
      rw [Variable.check_eq inner (reordered.variableNamed?_eq distinct v.name)]
      exact .refl _
    · exact sameButUnknown_unknown (reordered.vars_perm.map _) _ _
    · apply SameButUnknown.flatMap
      intro child mem
      have found := reordered.groupNamed?_rel distinct child.name
      unfold checkInner
      generalize file.groupNamed? child.name = hit at found
      generalize file'.groupNamed? child.name = hit' at found
      cases found with
      | none => exact .refl _
      | some both => exact .cons _ (ih child mem inner both.1 both.2)
    · exact sameButUnknown_unknown reordered.groupNames_perm _ _

end Group

end

namespace Group

/-- Files that differ in the order of siblings alone have the same report, but for the order in
which the unknown parts of one kind in one container are told. -/
theorem validate_reordered (d : Dataset) (o : ValidationOptions) {file file' : DataFile}
    (distinct : file.Distinct) (reordered : file.Reordered file') :
    (o.allowUnknown = true → d.validate o file = d.validate o file') ∧
      SameButUnknown (d.validate o file).entries (d.validate o file').entries ∧
      (d.validate o file).passed = (d.validate o file').passed := by
  have same : ∀ o, SameButUnknown (d.check o [] NodePath.root file)
      (d.check o [] NodePath.root file') := fun o =>
    d.sameButUnknown_check .nil distinct reordered
  refine ⟨?_, ?_, Report.passed_eq (same o)⟩
  · intro allowed
    obtain ⟨allowUnknown, policy⟩ := o
    obtain rfl : allowUnknown = true := allowed
    rw [validate_known, validate_known, Report.known, Report.known, validate, validate,
      Report.entries_ofEntries, Report.entries_ofEntries, (same _).filter_eq]
  · unfold validate
    rw [Report.entries_ofEntries, Report.entries_ofEntries]
    exact same o

/-- A file for `nested` with parts that are not declared, in the root and in its profile. -/
def stationFile : DataFile :=
  ⟨"station", ∅, [⟨"time", 7, true⟩, ⟨"station", 2, false⟩], [],
    [⟨"notes", ∅, [], [], []⟩, ⟨"tests", ∅, [], [], []⟩,
      ⟨"profile", ∅, [⟨"level", 3, false⟩, ⟨"band", 4, false⟩],
        [⟨"wind", .int8, ["time", "level"], ∅⟩], []⟩]⟩

/-- The same file in another order. -/
def stationFileReordered : DataFile :=
  ⟨"station", ∅, [⟨"station", 2, false⟩, ⟨"time", 7, true⟩], [],
    [⟨"tests", ∅, [], [], []⟩, ⟨"notes", ∅, [], [], []⟩,
      ⟨"profile", ∅, [⟨"band", 4, false⟩, ⟨"level", 3, false⟩],
        [⟨"wind", .int8, ["time", "level"], ∅⟩], []⟩]⟩

theorem distinct_stationFile : stationFile.Distinct := by
  refine .intro (by decide) (by decide) (by decide) ?_
  simp only [stationFile, List.forall_mem_cons, List.not_mem_nil, false_imp_iff, implies_true,
    and_true]
  exact ⟨.intro .nil .nil .nil nofun, .intro .nil .nil .nil nofun,
    .intro (by decide) (by decide) .nil nofun⟩

theorem reordered_stationFile : stationFile.Reordered stationFileReordered := by
  have empty : ∀ name, FileGroup.Reordered ⟨name, ∅, [], [], []⟩ ⟨name, ∅, [], [], []⟩ :=
    fun _ => .intro rfl rfl .nil .nil .nil .nil
  refine .intro rfl rfl (.swap _ _ _) .nil ?_ (.swap _ _ _)
  exact .cons (empty "notes") (.cons (empty "tests")
    (.cons (.intro rfl rfl (.swap _ _ _) (.refl _) .nil .nil) .nil))

/-- The order of what is not declared is told, and nothing else of the order. -/
theorem validate_reordered_stationFile : ∃ d,
    Definition.nested.compileNamed "sounding" .empty = .ok d ∧
      d.validate .standard stationFile = d.validate .standard stationFileReordered ∧
      d.validate ⟨false, .standard⟩ stationFile ≠
        d.validate ⟨false, .standard⟩ stationFileReordered ∧
      SameButUnknown (d.validate ⟨false, .standard⟩ stationFile).entries
        (d.validate ⟨false, .standard⟩ stationFileReordered).entries :=
  ⟨_, rfl, (validate_reordered _ _ distinct_stationFile reordered_stationFile).1 rfl,
    by decide +kernel, (validate_reordered _ _ distinct_stationFile reordered_stationFile).2.1⟩

end Group

end ProductSpec
