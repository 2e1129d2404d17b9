/-
  The schema of a dataset against the example file made for it. The two are derived apart, the one
  from the types that values may have and the other from a value for each constraint, and they fit:
  all that is found is a null for each number that a plain document cannot hold.
-/
import ProductSpec.Proofs.DataFile.Example
import ProductSpec.Proofs.JsonSchema.Acceptance

namespace ProductSpec

open JsonSchema Number

namespace Literal

/-- A single number that is a NaN or infinite. -/
def isNonFinite : Literal → Bool
  | float x => !x.isFinite
  | _ => false

/-- A list is stored as an array. -/
theorem exists_toValue_list (items : List Literal) :
    ∃ t elements, (list items).toValue = .array t elements := by
  rw [toValue]
  split
  · exact ⟨_, _, rfl⟩
  · split
    · dsimp only
      split <;> exact ⟨_, _, rfl⟩
    · exact ⟨_, _, rfl⟩

theorem exists_toPlain_int (n : Int64) : ∃ m, (int n).toValue.toPlain = .int m := by
  rw [toValue]
  cases stored : storeInt32? n with
  | none => exact ⟨_, rfl⟩
  | some s =>
    unfold storeInt32? at stored
    split at stored
    · cases stored
      exact ⟨_, rfl⟩
    · cases stored

/-- The value stored for a literal has a type of the literal, unless it cannot be written. -/
theorem typeFaults_toValue (l : Literal) :
    typeFaults l.toValue.toPlain l.schemaTypes =
      if l.isNonFinite then [.wrongType .null ["number"]] else [] := by
  cases l with
  | text s => rw [schemaTypes]; rfl
  | int n =>
    obtain ⟨m, plain⟩ := exists_toPlain_int n
    rw [plain, schemaTypes]
    rfl
  | float x =>
    rw [schemaTypes]
    show typeFaults (Json.ofDouble x) ["number"] = if !x.isFinite then _ else _
    unfold Json.ofDouble
    cases x.isFinite <;> rfl
  | list items =>
    obtain ⟨t, elements, stored⟩ := exists_toValue_list items
    rw [stored]
    exact typeFaults_eq_nil_iff.2 ⟨"array", mem_schemaTypes_list.2 (.inl rfl), rfl⟩

end Literal

/-- A number is asked for and there is a null. -/
def nullAt (p : NodePath) : JsonSchema.Violation := ⟨p.place, .wrongType .null ["number"]⟩

namespace AttributeConstraint

/-- Whether a single number is asked for that is a NaN or infinite. -/
def isNonFinite (c : AttributeConstraint) : Bool :=
  match c.kind with
  | .literal l => l.isNonFinite
  | .placeholder _ => false

variable {follow : Follow} {path : NodePath}

theorem violations_exampleValue (c : AttributeConstraint) (location : List Step) :
    violationsWith follow location c.exampleValue.toPlain c.schema =
      if c.isNonFinite then [⟨location, .wrongType .null ["number"]⟩] else [] := by
  unfold isNonFinite exampleValue
  cases kind : c.kind with
  | literal l =>
    rw [violations_schema_literal kind, l.typeFaults_toValue]
    dsimp only
    split <;> rfl
  | placeholder p => exact violations_of_conformsTo kind (conformsTo_sample p)

end AttributeConstraint

section Parts

variable {follow : Follow} {path : NodePath}

/-- What is wrong with the values made up for a block of attributes. -/
theorem blockViolations_example (nonempty : path ≠ []) {constraints : List AttributeConstraint}
    (block : AttributeBlock constraints) :
    blockViolations follow (path.place ++ [.name "attributes"]) constraints
        (exampleAttributes constraints) =
      (attributesWhere AttributeConstraint.isNonFinite path constraints).map nullAt := by
  unfold blockViolations attributesWhere
  rw [List.map_map, map_filter_eq_flatMap]
  apply List.flatMap_congr
  intro c mem
  rw [get?_exampleAttributes mem block.names.distinct]
  have here : nullAt (path.child "attributes" c.name) =
      ⟨path.place ++ [.name "attributes"] ++ [.name c.name], .wrongType .null ["number"]⟩ := by
    rw [nullAt, NodePath.place_child nonempty]
  show violationsWith follow _ c.exampleValue.toPlain c.schema =
    if c.isNonFinite then [nullAt _] else []
  rw [c.violations_exampleValue, here]

theorem Variable.perm_violations_example (nonempty : path ≠ []) {v : Variable}
    (block : AttributeBlock v.attributes) :
    (violationsWith follow path.place v.exampleVariable.toPlain (ofVariable v)).Perm
      ((attributesWhere AttributeConstraint.isNonFinite path v.attributes).map nullAt) := by
  have typed : typeViolations path.place v.dataType v.exampleVariable.dataType = [] := if_pos rfl
  rw [← blockViolations_example nonempty block, ← List.append_nil (blockViolations ..), ← typed]
  exact violations_ofVariable block.names.distinct v.exampleVariable

namespace Group

variable (unlimitedLength : Nat)

theorem distinct_exampleNamed {outer : List String} {g : Group} (wf : g.WellFormed outer)
    (label : String) : (g.exampleNamed unlimitedLength label).Distinct := by
  induction g using induction generalizing outer label with
  | step g ih =>
    have dimensions : ((g.exampleNamed unlimitedLength label).dimensions.map
        FileDimension.name).Nodup := dimensionNames_exampleNamed ▸ wf.dimensions.distinct
    have vars : ((g.exampleNamed unlimitedLength label).vars.map FileVariable.name).Nodup :=
      varNames_exampleNamed ▸ wf.vars.distinct
    have groups : ((g.exampleNamed unlimitedLength label).groups.map FileGroup.name).Nodup :=
      groupNames_exampleNamed ▸ wf.groups.distinct
    apply FileGroup.Distinct.intro dimensions vars groups
    intro file mem
    obtain ⟨h, isIn, rfl⟩ := List.mem_map.1 mem
    rw [exampleGroup_eq]
    exact ih h isIn (wf.inner isIn) h.name

theorem partViolations_example_dimension {g : Group}
    (distinct : (g.dimensions.map Dimension.name).Nodup) (label : String) (location : List Step)
    {d : Dimension} (mem : d ∈ g.dimensions) :
    partViolations follow location d.name d.info.required
      (((g.exampleNamed unlimitedLength label).dimensionNamed? d.name).map fun d =>
        .ofNat d.size.toNat) (ofDimension d) = [] := by
  rw [dimensionNamed?_exampleNamed distinct mem]
  exact violations_ofDimension d _

/-- What is wrong with the example of a group, part by part. -/
theorem perm_groupViolations_example {outer : List String} {g : Group} (wf : g.WellFormed outer)
    (nonempty : path ≠ []) (label : String) :
    (groupViolations follow path.place g (g.exampleNamed unlimitedLength label)).Perm
      ((g.attributesInside AttributeConstraint.isNonFinite path).map nullAt) := by
  induction g using induction generalizing outer path label with
  | step g ih =>
    have dimensions : (g.dimensions.flatMap fun d =>
        partViolations follow (path.place ++ [.name "dimensions"]) d.name d.info.required
          (((g.exampleNamed unlimitedLength label).dimensionNamed? d.name).map fun d =>
            .ofNat d.size.toNat) (ofDimension d)) = [] :=
      List.flatMap_eq_nil_iff.2 fun d mem =>
        partViolations_example_dimension unlimitedLength wf.dimensions.distinct label _ mem
    have groups : ∀ h ∈ g.groups,
        (partViolations follow (path.place ++ [.name "groups"]) h.name h.info.required
          (((g.exampleNamed unlimitedLength label).groupNamed? h.name).map FileGroup.toPlain)
          (ofGroup h)).Perm ((h.attributesInside AttributeConstraint.isNonFinite
            (path.child "groups" h.name)).map nullAt) := by
      intro h mem
      have here := NodePath.child_ne_nil path "groups" h.name
      rw [groupNamed?_exampleNamed wf.groups.distinct mem]
      show (violationsWith follow (path.place ++ [.name "groups"] ++ [.name h.name])
        (h.exampleNamed unlimitedLength h.name).toPlain (ofGroup h)).Perm _
      rw [← NodePath.place_child nonempty]
      exact (violations_ofGroup (wf.inner mem) (distinct_exampleNamed _ (wf.inner mem) _)).trans
        (ih h mem (wf.inner mem) here h.name)
    have vars : ∀ v ∈ g.vars,
        (partViolations follow (path.place ++ [.name "variables"]) v.name v.info.required
          (((g.exampleNamed unlimitedLength label).variableNamed? v.name).map
            FileVariable.toPlain) (ofVariable v)).Perm
          ((ProductSpec.attributesWhere AttributeConstraint.isNonFinite
            (path.child "variables" v.name) v.attributes).map nullAt) := by
      intro v mem
      rw [variableNamed?_exampleNamed wf.vars.distinct mem]
      show (violationsWith follow (path.place ++ [.name "variables"] ++ [.name v.name])
        v.exampleVariable.toPlain (ofVariable v)).Perm _
      rw [← NodePath.place_child nonempty]
      exact v.perm_violations_example (NodePath.child_ne_nil path "variables" v.name)
        (wf.blocks mem)
    have attributes : blockViolations follow (path.place ++ [.name "attributes"]) g.attributes
        (g.exampleNamed unlimitedLength label).attributes = _ :=
      blockViolations_example nonempty wf.attributes
    unfold groupViolations
    rw [attributesInside_eq, dimensions, attributes, List.append_nil, List.map_append,
      List.map_append, List.map_flatMap, List.map_flatMap, List.append_assoc]
    -- The schema names groups before variables.
    exact (((List.Perm.flatMap_left _ groups).append (List.Perm.flatMap_left _ vars)).trans
      List.perm_append_comm).append_left _

end Group

end Parts

namespace Definition

/-- The schema of a compiled dataset is valid; no list of required names or of types in it names
anything twice. The example file of the dataset is checked against it, and all that is found is one
null for each attribute that asks for a single number that is a NaN or infinite. -/
theorem schema_accepts_example (d : Definition) (name : String) (defaults : Defaults)
    {dataset : Dataset} (compiled : d.compileNamed name defaults = .ok dataset)
    (unlimitedLength : Nat) :
    isValid (ofDataset dataset) = true ∧
      (∀ members keyword items, Subschema (.object members) (ofDataset dataset) →
        keyword = "required" ∨ keyword = "type" → (keyword, Json.array items) ∈ members →
        items.Nodup) ∧
      ∃ violations,
        check? (ofDataset dataset) (dataset.exampleFile unlimitedLength).toPlain =
            some violations ∧
          violations.Perm
            ((dataset.attributesWhere AttributeConstraint.isNonFinite).map nullAt) ∧
          (dataset.attributesWhere AttributeConstraint.isNonFinite).Nodup := by
  have wf : dataset.WellFormed [] := (Section.of_compile d.body compiled).2.2
  have valid := isValid_ofDataset wf
  obtain ⟨follow, checked⟩ :=
    check?_ofDataset wf (dataset.exampleFile unlimitedLength).toPlain
  have distinct := Group.distinct_exampleNamed unlimitedLength wf dataset.productName
  refine ⟨valid, fun members keyword items part named mem =>
    nodup_of_isValid (part.isValid valid) named mem, _, checked, ?_,
    Group.nodup_attributesWhere _ wf⟩
  rw [Group.exampleFile_eq]
  exact (violations_ofDataset wf distinct).trans
    (Group.perm_groupViolations_example unlimitedLength wf (List.cons_ne_nil "root" []) _)

/-- Of the two attributes with a NaN the one that is a list is accepted. -/
theorem schema_accepts_example_undefinedLimits : ∃ dataset,
    undefinedLimits.compileNamed "sounding" .empty = .ok dataset ∧
      check? (ofDataset dataset) (dataset.exampleFile 7).toPlain =
        some [⟨[.name "attributes", .name "fill"], .wrongType .null ["number"]⟩] := by
  refine ⟨_, rfl, ?_⟩
  obtain ⟨-, -, violations, checked, found, -⟩ :=
    schema_accepts_example undefinedLimits "sounding" .empty rfl 7
  exact checked.trans (congrArg some (List.perm_singleton.1 found))

end Definition

end ProductSpec
