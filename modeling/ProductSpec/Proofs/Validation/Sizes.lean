/-
  The sizes of the dimensions that variables use. A report without a missing part and without a
  dimension that differs promises for each of them that the size in the file is accepted: by the
  declaration in the group where the file has the dimension, and by the nearest declaration as
  well, unless that one is optional and left out by the file.
-/
import ProductSpec.Proofs.Validation.Account
import ProductSpec.Proofs.Validation.Silent

namespace ProductSpec

/-- Each dimension of a level has an accepted size there, or it is optional and absent there. -/
def ScopeLevel.Settled (l : ScopeLevel) : Prop := ∀ d ∈ l.declared, d.Accepts (l.present? d.name)

theorem ScopeLevel.Settled.accepts {l : ScopeLevel} (h : l.Settled) {name : String} {d : Dimension}
    (declared : l.declared? name = some d) : d.Accepts (l.present? name) := by
  obtain ⟨mem, rfl⟩ := of_find?_name declared
  exact h d mem

namespace Scope

/-- The file has the dimension with a size that the group holding it accepts, if it declares it.
The nearest declaration accepts the size too, unless the dimension is optional there and absent
there, and the group that holds it declares it as well. -/
def Sized (scope : Scope) (name : String) : Prop :=
  ∃ holder stored l d,
    Nearest (·.present? name) scope holder stored ∧ Nearest (·.declared? name) scope l d ∧
      (∀ own, holder.declared? name = some own → own.size.accepts stored.size = true) ∧
      (d.size.accepts stored.size = true ∨
        d.info.required = false ∧ l.present? name = none ∧
          (holder.declared? name).isSome = true)

theorem Meets.sized {scope : Scope} {name : String} (h : scope.Meets name)
    (settled : ∀ l ∈ scope, l.Settled) (known : name ∈ scope.names) : scope.Sized name := by
  obtain ⟨holder, stored, isHolder, accepted⟩ := h
  obtain ⟨isIn, held⟩ := isHolder.found
  obtain ⟨d, declared⟩ := Option.isSome_iff_exists.1 (isSome_declared?.2 known)
  obtain ⟨l, nearest⟩ := exists_nearest_declared declared
  obtain ⟨isIn', here⟩ := nearest.found
  refine ⟨holder, stored, l, d, isHolder, nearest, ?_, ?_⟩
  · intro own declared
    have accepts := (settled holder isIn).accepts declared
    rw [held] at accepts
    exact accepts
  · rcases accepted with declaredThere | accepts
    · have accepts := (settled l isIn').accepts here
      cases present : l.present? name with
      | none =>
        rw [present] at accepts
        exact .inr ⟨accepts, rfl, declaredThere⟩
      | some actual =>
        -- The nearest declaration and the nearest dimension of the file are at one level.
        obtain rfl : holder = l := isHolder.level_eq nearest (by rw [present]; rfl) declaredThere
        rw [held] at accepts
        exact .inl accepts
    · exact .inl (accepts l d nearest)

end Scope

/-- Checks that find no part missing and no dimension that differs. -/
def Fitting (entries : List Entry) : Prop :=
  ∀ x, Entry.finding x ∈ entries → x.category ≠ .missing ∧ x.category ≠ .dimensionMismatch

theorem Fitting.subset {entries others : List Entry} (h : Fitting entries)
    (sub : ∀ e ∈ others, e ∈ entries) : Fitting others :=
  fun x mem => h x (sub _ mem)

namespace Dimension

theorem category_of_mem_check {d : Dimension} {o : ValidationOptions} {path : NodePath}
    {file : FileGroup} {x : Diagnostic} (h : .finding x ∈ d.check o path file) :
    x.category = .missing ∨ x.category = .dimensionMismatch := by
  unfold check at h
  cases found : file.dimensionNamed? d.name with
  | none =>
    simp only [found, ValidationOptions.absent] at h
    split at h
    · cases List.mem_singleton.1 h
      exact .inl rfl
    · cases h
  | some actual =>
    simp only [found] at h
    split at h
    · cases List.mem_singleton.1 h
    · cases List.mem_singleton.1 h
      exact .inr rfl

theorem accepts_of_fitting {d : Dimension} {o : ValidationOptions} {path : NodePath}
    {file : FileGroup} (fitting : Fitting (d.check o path file)) :
    d.Accepts (file.dimensionNamed? d.name) := by
  have silent : Silent (d.check o path file) := fun x mem =>
    (category_of_mem_check mem).elim (fitting x mem).1 (fitting x mem).2
  exact silent_check.1 silent

end Dimension

/-- A variable that fits uses dimensions that are met. -/
theorem Variable.meets_of_fitting {v : Variable} {o : ValidationOptions} {scope : Scope}
    {path : NodePath} {actual : FileVariable}
    (fitting : Fitting (v.checkSelf o scope path actual)) {name : String}
    (used : name ∈ v.dimensions) : scope.Meets name := by
  have none : ∀ p, ¬ v.Violates scope path actual p .dimensionMismatch := by
    intro p violation
    obtain ⟨e, mem, found⟩ := List.mem_filterMap.1 (mem_found_checkSelf (o := o).2 violation)
    cases e with
    | pass q => cases found
    | finding x =>
      obtain ⟨-, differs⟩ := Prod.mk.inj (Option.some.inj found)
      exact (fitting x mem).2 differs
  by_contra unmet
  have stored : actual.dimensions = v.dimensions := by
    by_contra unlike
    exact none _ (.dimensions unlike)
  exact none _ (.dimension used (stored ▸ used) unmet)

namespace Group

variable {o : ValidationOptions} {scope : Scope} {path : NodePath} {file : FileGroup} {g : Group}

theorem settled_level (fitting : Fitting (g.check o scope path file)) : (g.level file).Settled := by
  intro d mem
  have fits : Fitting (d.check o path file) := by
    apply fitting.subset
    intro e isIn
    rw [check_eq]
    simp only [List.mem_append, List.mem_flatMap]
    exact .inl (.inl (.inl (.inl (.inl (.inr ⟨d, mem, isIn⟩)))))
  exact Dimension.accepts_of_fitting fits

theorem fitting_checkSelf (fitting : Fitting (g.check o scope path file)) {v : Variable}
    (mem : v ∈ g.vars) {stored : FileVariable} (found : file.variableNamed? v.name = some stored) :
    Fitting (v.checkSelf o (g.level file :: scope) (path.child "variables" v.name) stored) := by
  apply fitting.subset
  intro e isIn
  have inCheck : e ∈ v.check o (g.level file :: scope) path file := by
    rw [Variable.check, found]
    exact List.mem_append_left _ isIn
  rw [check_eq]
  simp only [List.mem_append, List.mem_flatMap]
  exact .inl (.inl (.inl (.inr ⟨v, mem, inCheck⟩)))

end Group

/-- If the whole report fits, then at every level around a group that is reached each dimension has
an accepted size, or it is optional and absent. -/
theorem Active.settled {d : Dataset} {file : DataFile} {path : NodePath} {g : Group}
    {actual : FileGroup} {scope : Scope} (h : Active d file path g actual scope)
    {o : ValidationOptions} (fitting : Fitting (d.check o [] NodePath.root file)) :
    ∀ l ∈ g.level actual :: scope, l.Settled := by
  induction h with
  | root =>
    rw [List.forall_mem_cons]
    exact ⟨Group.settled_level fitting, nofun⟩
  | group active mem found ih =>
    rw [List.forall_mem_cons]
    exact ⟨Group.settled_level (fitting.subset fun e => (Active.group active mem found).mem_check),
      ih⟩

namespace Definition

/-- Where a report on a compiled dataset has no missing part and no dimension that differs, the
dimensions of all variables that the file has are sized. -/
theorem sized_of_clean_report (definition : Definition) (name : String) (defaults : Defaults)
    {d : Dataset} (compiled : definition.compileNamed name defaults = .ok d)
    (o : ValidationOptions) (file : DataFile)
    (clean : ∀ x ∈ (d.validate o file).diagnostics,
      x.category ≠ .missing ∧ x.category ≠ .dimensionMismatch) :
    ∀ path g actual scope, Active d file path g actual scope →
      ∀ v ∈ g.vars, ∀ stored, actual.variableNamed? v.name = some stored →
        ∀ used ∈ v.dimensions, Scope.Sized (g.level actual :: scope) used := by
  intro path g actual scope active v mem stored found used isUsed
  have wf : d.WellFormed [] := (Section.of_compile definition.body compiled).2.2
  have fitting : Fitting (d.check o [] NodePath.root file) :=
    fun x isIn => clean x (Report.mem_diagnostics.2 isIn)
  have here := fitting.subset fun e => active.mem_check
  have meets := Variable.meets_of_fitting (Group.fitting_checkSelf here mem found) isUsed
  exact meets.sized (active.settled fitting) ((active.wellFormed_names wf).declared mem isUsed)

/-- A file for `localTime` whose group has no dimension of its own, so that its variable goes over
the ten times of the root. -/
def tenTimes : DataFile :=
  ⟨"ten", ∅, [⟨"time", 10, false⟩], [], [⟨"profile", ∅, [], [⟨"wind", .float32, ["time"], ∅⟩], []⟩]⟩

theorem sized_of_clean_report_tenTimes : ∃ d path g actual scope v stored,
    localTime.compileNamed "sounding" .empty = .ok d ∧
      (d.validate .standard tenTimes).diagnostics = [] ∧
      Active d tenTimes path g actual scope ∧ v ∈ g.vars ∧
      actual.variableNamed? v.name = some stored ∧ "time" ∈ v.dimensions ∧
      Scope.Sized (g.level actual :: scope) "time" :=
  have active := .group .root List.mem_cons_self rfl
  ⟨_, _, _, _, _, _, _, rfl, rfl, active, List.mem_cons_self, rfl, List.mem_cons_self,
    sized_of_clean_report localTime "sounding" .empty rfl .standard tenTimes nofun _ _ _ _ active _
      List.mem_cons_self _ rfl _ List.mem_cons_self⟩

/-- The nearest declaration need not accept the size. Nothing is found in this file, although the
five times that its group declares are not the ten that the variable goes over. -/
theorem local_size_unchecked : ∃ d path g actual scope v stored holder size l declared,
    localTime.compileNamed "sounding" .empty = .ok d ∧
      (d.validate .standard tenTimes).diagnostics = [] ∧
      Active d tenTimes path g actual scope ∧ v ∈ g.vars ∧
      actual.variableNamed? v.name = some stored ∧ "time" ∈ v.dimensions ∧
      Scope.Nearest (·.present? "time") (g.level actual :: scope) holder size ∧
      Scope.Nearest (·.declared? "time") (g.level actual :: scope) l declared ∧
      declared.size.accepts size.size = false :=
  ⟨_, _, _, _, _, _, _, _, _, _, _, rfl, rfl, .group .root List.mem_cons_self rfl,
    List.mem_cons_self, rfl, List.mem_cons_self, .further rfl (.here rfl), .here rfl, rfl⟩

end Definition

end ProductSpec
