/-
  The schema of a dataset and validation find the same parts missing and the same variables with
  another data type, each at the place in the plain document that its path leads to. The schema
  goes by the document and validation by the tree; the two skip the same parts of a file.
-/
import ProductSpec.Proofs.JsonSchema.Attribute
import ProductSpec.Proofs.JsonSchema.Valid
import ProductSpec.Proofs.Validation.Parts
import ProductSpec.Proofs.Report.Entries
import ProductSpec.Proofs.Definition.Shape

namespace ProductSpec

open JsonSchema

namespace NodePath

/-- The place in the plain document of a file that a path leads to. -/
def place (p : NodePath) : List Step := p.tail.map .name

theorem place_child {p : NodePath} (h : p ≠ []) (kind name : String) :
    (p.child kind name).place = p.place ++ [.name kind] ++ [.name name] := by
  cases p with
  | nil => exact absurd rfl h
  | cons first rest => simp [place, child]

theorem child_ne_nil (p : NodePath) (kind name : String) : p.child kind name ≠ [] :=
  List.append_ne_nil_of_right_ne_nil p (List.cons_ne_nil kind [name])

end NodePath

namespace JsonSchema.Violation

/-- The place of a member that is missing. -/
def missing? (v : Violation) : Option (List Step) :=
  match v.fault with
  | .missing name => some (v.location ++ [.name name])
  | _ => none

/-- The place of a value that is none of those listed. -/
def notListed? (v : Violation) : Option (List Step) :=
  match v.fault with
  | .notListed _ _ => some v.location
  | _ => none

end JsonSchema.Violation

/-- The path of a finding of a category. -/
def Entry.at? (c : Category) : Entry → Option NodePath
  | pass _ => none
  | finding d => if d.category = c then some d.path else none

theorem Report.filterMap_at?_eq (entries : List Entry) (c : Category) :
    entries.filterMap (Entry.at? c) =
      ((ofEntries entries).diagnostics.filter fun x => x.category = c).map Diagnostic.path := by
  rw [(ofEntries_eq entries).1, List.filter_filterMap, List.map_filterMap]
  congr 1
  funext e
  cases e with
  | pass p => rfl
  | finding x =>
    by_cases same : x.category = c <;>
      simp [Entry.at?, Entry.diagnostic?, Option.filter, same]

/-- A schema and the checks find the same parts missing and the same data types wrong. -/
structure FindSame (violations : List JsonSchema.Violation) (entries : List Entry) : Prop where
  missing : (violations.filterMap JsonSchema.Violation.missing?).Perm
    ((entries.filterMap (Entry.at? .missing)).map NodePath.place)
  dataType : (violations.filterMap JsonSchema.Violation.notListed?).Perm
    ((entries.filterMap (Entry.at? .dataTypeMismatch)).map fun p => p.place ++ [.name "datatype"])

namespace FindSame

variable {violations others : List JsonSchema.Violation} {entries entries' : List Entry}

theorem of_none (none : ∀ v ∈ violations, v.missing? = none ∧ v.notListed? = none)
    (none' : ∀ e ∈ entries, e.at? .missing = Option.none ∧ e.at? .dataTypeMismatch = Option.none) :
    FindSame violations entries := by
  constructor
  · rw [List.filterMap_eq_nil_iff.2 fun v mem => (none v mem).1,
      List.filterMap_eq_nil_iff.2 fun e mem => (none' e mem).1]
    exact .nil
  · rw [List.filterMap_eq_nil_iff.2 fun v mem => (none v mem).2,
      List.filterMap_eq_nil_iff.2 fun e mem => (none' e mem).2]
    exact .nil

theorem nil : FindSame [] [] := of_none nofun nofun

theorem perm (h : FindSame others entries) (same : violations.Perm others) :
    FindSame violations entries :=
  ⟨(same.filterMap _).trans h.missing, (same.filterMap _).trans h.dataType⟩

theorem append (h : FindSame violations entries) (h' : FindSame others entries') :
    FindSame (violations ++ others) (entries ++ entries') := by
  constructor
  · rw [List.filterMap_append, List.filterMap_append, List.map_append]
    exact h.missing.append h'.missing
  · rw [List.filterMap_append, List.filterMap_append, List.map_append]
    exact h.dataType.append h'.dataType

theorem flatMap {α : Type} {items : List α} {find : α → List JsonSchema.Violation} {check : α → List Entry}
    (h : ∀ x ∈ items, FindSame (find x) (check x)) :
    FindSame (items.flatMap find) (items.flatMap check) := by
  induction items with
  | nil => exact nil
  | cons x rest ih =>
    rw [List.flatMap_cons, List.flatMap_cons]
    exact (h x List.mem_cons_self).append (ih fun y mem => h y (List.mem_cons_of_mem x mem))

end FindSame

section Parts

variable (follow : Follow) {path : NodePath} (o : ValidationOptions)

/-- A part that is absent. -/
theorem findSame_absent (nonempty : path ≠ []) (kind name : String) (required : Bool)
    (message : String) (constraint : Option String) :
    FindSame
      (if required then [⟨path.place ++ [.name kind], .missing name⟩] else [])
      (if required then [o.finding .missing (path.child kind name) message constraint] else []) := by
  cases required with
  | false => exact .nil
  | true =>
    constructor
    · show [path.place ++ [.name kind] ++ [.name name]].Perm [(path.child kind name).place]
      rw [NodePath.place_child nonempty]
    · exact .nil

theorem findSame_unknown (path : NodePath) (kind : String) (names declared : List String) :
    FindSame [] (o.unknown path kind names declared) := by
  refine .of_none nofun fun e mem => ?_
  unfold ValidationOptions.unknown at mem
  split at mem
  · cases mem
  · obtain ⟨name, -, rfl⟩ := List.mem_map.1 mem
    exact ⟨rfl, rfl⟩

theorem AttributeConstraint.findSame_check (nonempty : path ≠ [])
    (actual : NameMap AttributeValue) (c : AttributeConstraint) :
    FindSame
      (partViolations follow (path.place ++ [.name "attributes"]) c.name c.isRequired
        ((actual.get? c.name).map AttributeValue.toPlain) c.schema)
      (c.check o path actual) := by
  unfold check
  cases actual.get? c.name with
  | none => exact findSame_absent o nonempty "attributes" c.name c.isRequired _ _
  | some value =>
    refine .of_none (fun v mem => ?_) fun e mem => ?_
    · have mem : v ∈ violationsWith follow _ value.toPlain c.schema := mem
      rcases c.violations_schema_cases value.toPlain with same | ⟨types, same⟩ | same <;>
        rw [same] at mem
      · cases mem
      · cases List.mem_singleton.1 mem
        exact ⟨rfl, rfl⟩
      · cases List.mem_singleton.1 mem
        exact ⟨rfl, rfl⟩
    · cases List.mem_singleton.1 mem
      unfold checkValue
      cases c.kind with
      | literal l => dsimp only; split <;> exact ⟨rfl, rfl⟩
      | placeholder p => dsimp only; split <;> exact ⟨rfl, rfl⟩

theorem findSame_checkAttributes (nonempty : path ≠ []) (constraints : List AttributeConstraint)
    (actual : NameMap AttributeValue) :
    FindSame
      (blockViolations follow (path.place ++ [.name "attributes"]) constraints actual)
      (checkAttributes o path constraints actual) := by
  have found := (FindSame.flatMap fun c (_ : c ∈ constraints) =>
    c.findSame_check follow o nonempty actual).append
      (findSame_unknown o path "attributes" actual.names
        (constraints.map AttributeConstraint.name))
  rw [List.append_nil] at found
  exact found

theorem Dimension.findSame_check (nonempty : path ≠ []) (file : FileGroup) (d : Dimension) :
    FindSame
      (partViolations follow (path.place ++ [.name "dimensions"]) d.name d.info.required
        ((file.dimensionNamed? d.name).map fun d => .ofNat d.size.toNat) (ofDimension d))
      (d.check o path file) := by
  unfold check
  cases file.dimensionNamed? d.name with
  | none => exact findSame_absent o nonempty "dimensions" d.name d.info.required _ _
  | some actual =>
    refine .of_none (fun v mem => ?_) fun e mem => ?_
    · have mem : v ∈ violationsWith follow _ (Json.ofNat actual.size.toNat) (ofDimension d) := mem
      rw [violations_ofDimension] at mem
      cases mem
    · dsimp only at mem
      split at mem <;> cases List.mem_singleton.1 mem <;> exact ⟨rfl, rfl⟩

namespace Variable

theorem findSame_checkSelf (v : Variable) (scope : Scope) (path : NodePath) (actual : FileVariable) :
    FindSame (typeViolations path.place v.dataType actual.dataType)
      (v.checkSelf o scope path actual) := by
  have type : FindSame (typeViolations path.place v.dataType actual.dataType)
      (if actual.dataType == v.dataType then []
        else [o.finding .dataTypeMismatch path
          ("type mismatch: expected " ++ v.dataType.token ++ ", got " ++ actual.dataType.token)
          v.dataType.token]) := by
    unfold typeViolations
    by_cases same : actual.dataType = v.dataType
    · rw [if_pos same, if_pos (beq_iff_eq.2 same)]
      exact .nil
    · rw [if_neg same, if_neg (by rwa [beq_iff_eq])]
      exact ⟨.nil, .refl _⟩
  unfold checkSelf
  rw [List.append_assoc, List.append_assoc, ← List.append_nil (typeViolations _ _ _)]
  -- What comes after the type is not among the faults that are compared.
  refine type.append (.of_none (fun _ mem => absurd mem List.not_mem_nil) fun e mem => ?_)
  rw [List.mem_append, List.mem_append] at mem
  rcases mem with mem | mem | mem
  · split at mem
    · cases mem
    · cases List.mem_singleton.1 mem
      exact ⟨rfl, rfl⟩
  · obtain ⟨⟨name, fault⟩, -, rfl⟩ := List.mem_map.1 mem
    exact ⟨rfl, rfl⟩
  · split at mem
    · cases List.mem_singleton.1 mem
      exact ⟨rfl, rfl⟩
    · cases mem

theorem findSame_check (nonempty : path ≠ []) (scope : Scope) (file : FileGroup) {v : Variable}
    (distinct : (v.attributes.map AttributeConstraint.name).Nodup) :
    FindSame
      (partViolations follow (path.place ++ [.name "variables"]) v.name v.info.required
        ((file.variableNamed? v.name).map FileVariable.toPlain) (ofVariable v))
      (v.check o scope path file) := by
  unfold check
  cases file.variableNamed? v.name with
  | none => exact findSame_absent o nonempty "variables" v.name v.info.required _ _
  | some actual =>
    have here : path.place ++ [.name "variables"] ++ [.name v.name] =
        (path.child "variables" v.name).place := (NodePath.place_child nonempty ..).symm
    show FindSame (violationsWith follow (path.place ++ [.name "variables"] ++ [.name v.name])
      actual.toPlain (ofVariable v)) (v.checkStored o scope _ actual)
    rw [here]
    have self := v.findSame_checkSelf o scope (path.child "variables" v.name) actual
    have attributes := findSame_checkAttributes follow o
      (NodePath.child_ne_nil path "variables" v.name) v.attributes actual.attributes
    exact (self.append attributes).perm
      ((violations_ofVariable distinct actual).trans List.perm_append_comm)

end Variable

namespace Group

/-- The same for a group inside another one, if it is so for any file in its place. -/
theorem findSame_checkInner {outer : List String} {h : Group} (wf : h.WellFormed outer)
    (nonempty : path ≠ []) (scope : Scope) {file : FileGroup} (distinct : file.Distinct)
    (known : ∀ inner : FileGroup, inner.Distinct →
      FindSame (groupViolations follow (path.child "groups" h.name).place h inner)
        (h.check o scope (path.child "groups" h.name) inner)) :
    FindSame
      (partViolations follow (path.place ++ [.name "groups"]) h.name h.info.required
        ((file.groupNamed? h.name).map FileGroup.toPlain) (ofGroup h))
      (h.checkInner o scope path file) := by
  unfold checkInner
  cases found : file.groupNamed? h.name with
  | none => exact findSame_absent o nonempty "groups" h.name h.info.required _ _
  | some inner =>
    have here : path.place ++ [.name "groups"] ++ [.name h.name] =
        (path.child "groups" h.name).place := (NodePath.place_child nonempty ..).symm
    have distinctInner := distinct.inner (of_find?_name found).1
    show FindSame (violationsWith follow (path.place ++ [.name "groups"] ++ [.name h.name])
      inner.toPlain (ofGroup h)) ([.pass (path.child "groups" h.name)] ++ h.check o _ _ inner)
    rw [here]
    have pass : FindSame [] [.pass (path.child "groups" h.name)] :=
      .of_none nofun fun e mem => by
        cases List.mem_singleton.1 mem
        exact ⟨rfl, rfl⟩
    exact (pass.append (known inner distinctInner)).perm (violations_ofGroup wf distinctInner)

theorem findSame_check {outer : List String} {g : Group} (wf : g.WellFormed outer)
    (nonempty : path ≠ []) (scope : Scope) {file : FileGroup} (distinct : file.Distinct) :
    FindSame (groupViolations follow path.place g file) (g.check o scope path file) := by
  induction g using induction generalizing outer path scope file with
  | step g ih =>
    have attributes := findSame_checkAttributes follow o nonempty g.attributes
      file.attributes
    have dimensions := FindSame.flatMap fun d (_ : d ∈ g.dimensions) =>
      d.findSame_check follow o nonempty file
    have vars := FindSame.flatMap fun v (mem : v ∈ g.vars) =>
      Variable.findSame_check follow o nonempty (g.level file :: scope) file
        (wf.blocks mem).names.distinct
    have groups := FindSame.flatMap fun h (mem : h ∈ g.groups) =>
      findSame_checkInner follow o (wf.inner mem) nonempty (g.level file :: scope) distinct fun _ =>
        ih h mem (wf.inner mem) (NodePath.child_ne_nil path "groups" h.name) _
    have unknown := fun kind names declared =>
      findSame_unknown o path kind names declared
    have found := (((((attributes.append dimensions).append (unknown "dimensions"
      (file.dimensions.map FileDimension.name) (g.dimensions.map Dimension.name))).append
      vars).append (unknown "variables" (file.vars.map FileVariable.name)
      (g.vars.map Variable.name))).append groups).append (unknown "groups"
      (file.groups.map FileGroup.name) (g.groups.map Group.name))
    rw [← check_eq, List.append_nil, List.append_nil, List.append_nil] at found
    -- The schema names groups before variables, validation checks variables first.
    refine found.perm ?_
    rw [groupViolations, List.append_assoc, List.append_assoc _ (List.flatMap _ g.vars)]
    exact List.perm_append_comm.append_left _

end Group

end Parts

namespace Definition

/-- For a file in which siblings of one kind have different names, the schema of a compiled dataset
and validation agree on presence and on storage types. The members that the schema finds missing are
the parts that a report tells to be missing, and the data types that it does not accept are those of
the variables that a report tells to have another one, each as often and at the place that the path
leads to. -/
theorem schema_agrees_on_presence (d : Definition) (name : String) (defaults : Defaults)
    {dataset : Dataset} (compiled : d.compileNamed name defaults = .ok dataset) {file : DataFile}
    (distinct : file.Distinct) (o : ValidationOptions) :
    ∃ violations, check? (ofDataset dataset) file.toPlain = some violations ∧
      (violations.filterMap JsonSchema.Violation.missing?).Perm
        (((dataset.validate o file).diagnostics.filter fun x => x.category = .missing).map
          fun x => x.path.place) ∧
      (violations.filterMap JsonSchema.Violation.notListed?).Perm
        (((dataset.validate o file).diagnostics.filter fun x => x.category = .dataTypeMismatch).map
          fun x => x.path.place ++ [.name "datatype"]) := by
  have wf : dataset.WellFormed [] := (Section.of_compile d.body compiled).2.2
  obtain ⟨follow, checked⟩ := check?_ofDataset wf file.toPlain
  have atRoot : NodePath.root.place = [] := rfl
  have found := (Group.findSame_check follow o wf (List.cons_ne_nil "root" []) [] distinct).perm
    (violations_ofDataset wf distinct)
  refine ⟨_, checked, ?_, ?_⟩
  · have missing := found.missing
    rw [Report.filterMap_at?_eq, List.map_map] at missing
    exact missing
  · have dataType := found.dataType
    rw [Report.filterMap_at?_eq, List.map_map] at dataType
    exact dataType

/-- A file of the nested definition that only has the variable of the root, of another type. -/
def bare : DataFile := ⟨"bare", ∅, [], [⟨"pressure", .float64, [], ∅⟩], []⟩

theorem distinct_bare : bare.Distinct := .intro (by decide) (by decide) (by decide) nofun

theorem schema_agrees_on_presence_bare : ∃ dataset violations,
    nested.compileNamed "sounding" .empty = .ok dataset ∧ bare.Distinct ∧
      check? (ofDataset dataset) bare.toPlain = some violations ∧
      (violations.filterMap JsonSchema.Violation.missing?).Perm
        [[.name "attributes", .name "title"], [.name "attributes", .name "levels"],
          [.name "dimensions", .name "time"], [.name "groups", .name "profile"]] ∧
      (violations.filterMap JsonSchema.Violation.notListed?).Perm
        [[.name "variables", .name "pressure", .name "datatype"]] :=
  have ⟨violations, checked, missing, dataType⟩ := schema_agrees_on_presence nested "sounding"
    .empty rfl distinct_bare .standard
  ⟨_, violations, rfl, distinct_bare, checked, missing, dataType⟩

end Definition

end ProductSpec
