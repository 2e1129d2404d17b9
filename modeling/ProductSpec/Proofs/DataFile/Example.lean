/-
  Example files satisfy the dataset they were made for, whatever the options of the check: all
  that a report finds is one value for each attribute that asks for a NaN.
-/
import ProductSpec.Proofs.Attribute.Example
import ProductSpec.Proofs.Definition.Shape
import ProductSpec.Proofs.NameMap
import ProductSpec.Proofs.Names
import ProductSpec.Proofs.Report.Entries
import ProductSpec.Proofs.Validation.Parts
import ProductSpec.Proofs.Validation.Scope

namespace ProductSpec

/-- The places of the attributes of a block with constraints of some kind. -/
def attributesWhere (asks : AttributeConstraint → Bool) (path : NodePath)
    (constraints : List AttributeConstraint) : List NodePath :=
  (constraints.filter asks).map fun c => path.child "attributes" c.name

/-- The places of the attributes of a dataset with constraints of some kind, at any depth. -/
def Group.attributesWhere (asks : AttributeConstraint → Bool) (d : Dataset) : List NodePath :=
  d.walk.flatMap fun e => ProductSpec.attributesWhere asks e.1 e.2.attributes

/-- The attributes of a dataset that ask for a NaN, at any depth. -/
def Group.nanAttributes (d : Dataset) : List NodePath :=
  d.attributesWhere AttributeConstraint.holdsNaN

/-- All that the checks found is one value that differs at each of the places. -/
def DiffersAt (entries : List Entry) (places : List NodePath) : Prop :=
  entries.filterMap Entry.found? = places.map fun p => (p, .valueMismatch)

namespace DiffersAt

theorem nil : DiffersAt [] [] := rfl

theorem pass (path : NodePath) : DiffersAt [.pass path] [] := rfl

theorem finding (o : ValidationOptions) (path : NodePath) (message : String)
    (constraint : Option String) :
    DiffersAt [o.finding .valueMismatch path message constraint] [path] := rfl

theorem append {entries others : List Entry} {places more : List NodePath}
    (h : DiffersAt entries places) (h' : DiffersAt others more) :
    DiffersAt (entries ++ others) (places ++ more) := by
  unfold DiffersAt at *
  rw [List.filterMap_append, List.map_append, h, h']

theorem flatMap {α : Type} {items : List α} {checks : α → List Entry}
    {places : α → List NodePath} (h : ∀ x ∈ items, DiffersAt (checks x) (places x)) :
    DiffersAt (items.flatMap checks) (items.flatMap places) := by
  induction items with
  | nil => exact nil
  | cons x rest ih =>
    obtain ⟨first, others⟩ := List.forall_mem_cons.1 h
    rw [List.flatMap_cons, List.flatMap_cons]
    exact first.append (ih others)

/-- Checks that find nothing. -/
theorem flatMap_nil {α : Type} {items : List α} {checks : α → List Entry}
    (h : ∀ x ∈ items, DiffersAt (checks x) []) : DiffersAt (items.flatMap checks) [] := by
  have none : items.flatMap (fun _ => ([] : List NodePath)) = [] :=
    List.flatMap_eq_nil_iff.2 fun _ _ => rfl
  rw [← none]
  exact flatMap h

end DiffersAt

/-- Parts that are all declared are known, whether unknown ones are allowed or not. -/
theorem unknown_of_declared {o : ValidationOptions} {path : NodePath} {kind : String}
    {names declared : List String} (h : names ⊆ declared) :
    o.unknown path kind names declared = [] := by
  unfold ValidationOptions.unknown
  split
  · rfl
  · have none : (names.filter fun name => name ∉ declared) = [] := by
      rw [List.filter_eq_nil_iff]
      intro name mem undeclared
      exact of_decide_eq_true undeclared (h mem)
    rw [none, List.map_nil]

section Attributes

variable {constraints : List AttributeConstraint} (block : AttributeBlock constraints)

theorem get?_exampleAttributes {c : AttributeConstraint} (mem : c ∈ constraints)
    (distinct : (constraints.map AttributeConstraint.name).Nodup) :
    (exampleAttributes constraints).get? c.name = some c.exampleValue := by
  have names : (constraints.map fun c => (c.name, c.exampleValue)).map Prod.fst =
      constraints.map AttributeConstraint.name := by
    rw [List.map_map]
    rfl
  have isIn : (c.name, c.exampleValue) ∈ constraints.map fun c => (c.name, c.exampleValue) :=
    List.mem_map_of_mem mem
  exact NameMap.get?_foldl_insert_of_mem (names ▸ distinct) isIn

theorem mem_names_exampleAttributes {name : String}
    (h : name ∈ (exampleAttributes constraints).names) :
    name ∈ constraints.map AttributeConstraint.name := by
  obtain ⟨e, mem, rfl⟩ := List.mem_map.1 h
  obtain ⟨c, isIn, rfl⟩ := List.mem_map.1 (NameMap.mem_of_mem_ofList mem)
  exact List.mem_map_of_mem isIn

theorem attributesWhere_eq_flatMap (asks : AttributeConstraint → Bool) (path : NodePath) :
    attributesWhere asks path constraints =
      constraints.flatMap fun c => attributesWhere asks path [c] := by
  induction constraints with
  | nil => rfl
  | cons c rest ih =>
    rw [List.flatMap_cons, ← ih]
    unfold attributesWhere
    rw [← List.map_append, ← List.filter_append, List.singleton_append]

include block in
/-- The values made up for a block of attributes. -/
theorem checkAttributes_example (o : ValidationOptions) (path : NodePath) :
    DiffersAt (checkAttributes o path constraints (exampleAttributes constraints))
      (attributesWhere AttributeConstraint.holdsNaN path constraints) := by
  rw [checkAttributes, unknown_of_declared fun _ => mem_names_exampleAttributes, List.append_nil,
    attributesWhere_eq_flatMap]
  refine DiffersAt.flatMap fun c mem => ?_
  unfold AttributeConstraint.check attributesWhere
  rw [get?_exampleAttributes mem block.names.distinct]
  show DiffersAt [c.checkValue o (path.child "attributes" c.name) c.exampleValue] _
  rcases c.checkValue_exampleValue (block.flat c mem) o (path.child "attributes" c.name) with
    ⟨passes, plain⟩ | ⟨nan, message, constraint, found⟩
  · rw [passes, List.filter_cons_of_neg (by rw [plain]; exact Bool.false_ne_true)]
    exact .pass _
  · rw [found, List.filter_cons_of_pos nan]
    exact .finding o _ message constraint

end Attributes

theorem Dimension.accepts_exampleDimension (unlimitedLength : Nat) (d : Dimension) :
    d.size.accepts (d.exampleDimension unlimitedLength).size = true := by
  unfold exampleDimension
  cases d.size with
  | fixed n => exact beq_self_eq_true n
  | unlimited => rfl

theorem Dimension.name_exampleDimension (unlimitedLength : Nat) (d : Dimension) :
    (d.exampleDimension unlimitedLength).name = d.name := by
  unfold exampleDimension
  cases d.size <;> rfl

theorem Variable.checkSelf_example {v : Variable} {scope : Scope}
    (met : ∀ name ∈ v.dimensions, scope.Meets name) (o : ValidationOptions) (path : NodePath) :
    v.checkSelf o scope path v.exampleVariable = [.pass path] := by
  have faultless : v.dimensionFaults scope v.exampleVariable = [] := by
    unfold dimensionFaults
    rw [List.filterMap_eq_nil_iff]
    intro name mem
    rw [Scope.fault?_eq_none_iff.2 (met name (List.mem_of_mem_filter mem))]
    rfl
  have sameType : (v.exampleVariable.dataType == v.dataType) = true := beq_self_eq_true _
  have sameDimensions : (v.exampleVariable.dimensions == v.dimensions) = true :=
    beq_self_eq_true _
  unfold checkSelf
  rw [sameType, sameDimensions, faultless]
  rfl

namespace Group

variable (unlimitedLength : Nat)

/-- The example of a group, under any name. -/
def exampleNamed (unlimitedLength : Nat) (name : String) (g : Group) : FileGroup :=
  ⟨name, exampleAttributes g.attributes,
    g.dimensions.map (Dimension.exampleDimension unlimitedLength),
    g.vars.map Variable.exampleVariable, g.groups.map (exampleGroup unlimitedLength)⟩

theorem exampleGroups_eq (groups : List Group) :
    exampleGroups unlimitedLength groups = groups.map (exampleGroup unlimitedLength) := by
  induction groups with
  | nil => rfl
  | cons g rest ih => rw [exampleGroups, ih, List.map_cons]

theorem exampleGroup_eq (g : Group) :
    g.exampleGroup unlimitedLength = g.exampleNamed unlimitedLength g.name := by
  obtain ⟨name, info, attributes, dimensions, vars, groups⟩ := g
  rw [exampleGroup, exampleGroups_eq]
  rfl

theorem exampleFile_eq (d : Dataset) :
    d.exampleFile unlimitedLength = d.exampleNamed unlimitedLength d.productName := by
  rw [exampleFile, exampleGroup_eq]
  rfl

theorem name_exampleGroup (g : Group) : (g.exampleGroup unlimitedLength).name = g.name := by
  rw [exampleGroup_eq]
  rfl

section Parts

variable {unlimitedLength} {g : Group} {label : String}

theorem dimensionNames_exampleNamed :
    (g.exampleNamed unlimitedLength label).dimensions.map FileDimension.name =
      g.dimensions.map Dimension.name :=
  map_name_map (Dimension.name_exampleDimension unlimitedLength) _

theorem varNames_exampleNamed :
    (g.exampleNamed unlimitedLength label).vars.map FileVariable.name = g.vars.map Variable.name :=
  map_name_map (f := Variable.exampleVariable) (fun _ => rfl) _

theorem groupNames_exampleNamed :
    (g.exampleNamed unlimitedLength label).groups.map FileGroup.name = g.groups.map Group.name :=
  map_name_map (name_exampleGroup unlimitedLength) _

/-- Under the name of a dimension, the example of a group has the example of the dimension. -/
theorem dimensionNamed?_exampleNamed (distinct : (g.dimensions.map Dimension.name).Nodup)
    {d : Dimension} (mem : d ∈ g.dimensions) :
    (g.exampleNamed unlimitedLength label).dimensionNamed? d.name =
      some (d.exampleDimension unlimitedLength) :=
  find?_map_name (Dimension.name_exampleDimension unlimitedLength) distinct mem

theorem variableNamed?_exampleNamed (distinct : (g.vars.map Variable.name).Nodup)
    {v : Variable} (mem : v ∈ g.vars) :
    (g.exampleNamed unlimitedLength label).variableNamed? v.name = some v.exampleVariable :=
  find?_map_name (f := Variable.exampleVariable) (fun _ => rfl) distinct mem

theorem groupNamed?_exampleNamed (distinct : (g.groups.map Group.name).Nodup)
    {h : Group} (mem : h ∈ g.groups) :
    (g.exampleNamed unlimitedLength label).groupNamed? h.name =
      some (h.exampleNamed unlimitedLength h.name) := by
  rw [← exampleGroup_eq]
  exact find?_map_name (name_exampleGroup unlimitedLength) distinct mem

end Parts

/-- In the example of a group all dimensions in scope are met. -/
theorem meets_example {outer : List String} {g : Group}
    (distinct : (g.dimensions.map Dimension.name).Nodup) {scope : Scope}
    (met : ∀ name ∈ outer, scope.Meets name) (label : String) :
    ∀ name ∈ g.scopeNames outer,
      Scope.Meets (g.level (g.exampleNamed unlimitedLength label) :: scope) name := by
  intro name mem
  by_cases own : name ∈ g.dimensions.map Dimension.name
  · obtain ⟨d, isIn, rfl⟩ := List.mem_map.1 own
    have stored : (g.exampleNamed unlimitedLength label).dimensionNamed? d.name = some _ :=
      dimensionNamed?_exampleNamed distinct isIn
    have declared := find?_name distinct isIn
    exact .here stored (Option.isSome_iff_exists.2 ⟨d, declared⟩)
  · have absent : name ∉ (g.exampleNamed unlimitedLength label).dimensions.map
        FileDimension.name := by
      rwa [dimensionNames_exampleNamed]
    exact .further (find?_name_eq_none absent) (find?_name_eq_none own)
      (met name ((List.mem_append.1 mem).resolve_left own))

/-- In the example of a group all its dimensions have the right sizes. -/
theorem check_example_dimensions {g : Group} (distinct : (g.dimensions.map Dimension.name).Nodup)
    (o : ValidationOptions) (path : NodePath) (label : String) :
    DiffersAt (g.dimensions.flatMap fun d =>
      d.check o path (g.exampleNamed unlimitedLength label)) [] := by
  refine DiffersAt.flatMap_nil fun d mem => ?_
  unfold Dimension.check
  rw [dimensionNamed?_exampleNamed distinct mem]
  dsimp only
  rw [if_pos (d.accepts_exampleDimension unlimitedLength)]
  exact .pass _

theorem check_example_vars {g : Group} (distinct : (g.vars.map Variable.name).Nodup)
    {scope : Scope} (blocks : ∀ v ∈ g.vars, AttributeBlock v.attributes)
    (met : ∀ v ∈ g.vars, ∀ name ∈ v.dimensions, scope.Meets name)
    (o : ValidationOptions) (path : NodePath) (label : String) :
    DiffersAt (g.vars.flatMap fun v =>
        v.check o scope path (g.exampleNamed unlimitedLength label))
      (g.vars.flatMap fun v => ProductSpec.attributesWhere AttributeConstraint.holdsNaN
        (path.child "variables" v.name) v.attributes) := by
  refine DiffersAt.flatMap fun v mem => ?_
  unfold Variable.check
  rw [variableNamed?_exampleNamed distinct mem]
  show DiffersAt (v.checkSelf o scope (path.child "variables" v.name) v.exampleVariable ++
    checkAttributes o (path.child "variables" v.name) v.attributes
      (exampleAttributes v.attributes)) _
  rw [Variable.checkSelf_example (met v mem)]
  exact (DiffersAt.pass _).append (checkAttributes_example (blocks v mem) o _)

/-- The places of the attributes of a group with constraints of some kind, at any depth. -/
def attributesInside (asks : AttributeConstraint → Bool) (path : NodePath) (g : Group) :
    List NodePath :=
  ProductSpec.attributesWhere asks path g.attributes ++
    (g.inside path).flatMap fun e => ProductSpec.attributesWhere asks e.1 e.2.attributes

theorem attributesInside_eq (asks : AttributeConstraint → Bool) (path : NodePath) (g : Group) :
    g.attributesInside asks path =
      ProductSpec.attributesWhere asks path g.attributes ++
        ((g.vars.flatMap fun v => ProductSpec.attributesWhere asks
            (path.child "variables" v.name) v.attributes) ++
          g.groups.flatMap fun h => h.attributesInside asks (path.child "groups" h.name)) := by
  have dimensions : ((g.dimensions.map fun d => (path.child "dimensions" d.name,
      NodeRef.dim d)).flatMap fun e =>
        ProductSpec.attributesWhere asks e.1 e.2.attributes) = [] := by
    rw [List.flatMap_map, List.flatMap_eq_nil_iff]
    exact fun d _ => rfl
  rw [attributesInside, inside_eq, List.flatMap_append, List.flatMap_append, dimensions,
    List.nil_append, List.flatMap_map, List.flatMap_assoc]
  rfl

/-- What is found in the example of a group. -/
theorem check_example {outer : List String} {g : Group} (wf : g.WellFormed outer) {scope : Scope}
    (met : ∀ name ∈ outer, scope.Meets name) (o : ValidationOptions) (path : NodePath)
    (label : String) :
    DiffersAt (g.check o scope path (g.exampleNamed unlimitedLength label))
      (g.attributesInside AttributeConstraint.holdsNaN path) := by
  induction g using induction generalizing outer scope path label with
  | step g ih =>
    have metHere := meets_example unlimitedLength wf.dimensions.distinct met
      label
    have groups : DiffersAt
        (g.groups.flatMap (checkInner o (g.level (g.exampleNamed unlimitedLength label) :: scope)
          path (g.exampleNamed unlimitedLength label)))
        (g.groups.flatMap fun h =>
          h.attributesInside AttributeConstraint.holdsNaN (path.child "groups" h.name)) := by
      refine DiffersAt.flatMap fun h mem => ?_
      unfold checkInner
      rw [groupNamed?_exampleNamed wf.groups.distinct mem]
      exact (DiffersAt.pass _).append (ih h mem (wf.inner mem) metHere _ h.name)
    have dimensions := check_example_dimensions unlimitedLength wf.dimensions.distinct o path
      label
    have vars := check_example_vars unlimitedLength wf.vars.distinct
      (fun v mem => wf.blocks mem)
      (fun v mem name used => metHere name (wf.declared mem used)) o path label
    have attributes := checkAttributes_example wf.attributes o path
    have known : ∀ kind names, o.unknown path kind names names = [] :=
      fun _ names => unknown_of_declared (List.Subset.refl names)
    rw [check_eq, dimensionNames_exampleNamed, varNames_exampleNamed, groupNames_exampleNamed,
      known, known, known, List.append_nil, List.append_nil, List.append_nil,
      attributesInside_eq, List.append_assoc, List.append_assoc]
    exact attributes.append (dimensions.append (vars.append groups))

/-- The attributes of every node inside a well-formed group are a well-formed block. -/
theorem block_of_mem_inside {outer : List String} {g : Group} (wf : g.WellFormed outer)
    {path : NodePath} {e : NodePath × NodeRef} (mem : e ∈ g.inside path) :
    AttributeBlock e.2.attributes := by
  induction g using induction generalizing outer path with
  | step g ih =>
    rw [inside_eq, List.mem_append, List.mem_append] at mem
    rcases mem with (mem | mem) | mem
    · obtain ⟨d, -, rfl⟩ := List.mem_map.1 mem
      exact ⟨⟨List.not_mem_nil, List.nodup_nil⟩, nofun⟩
    · obtain ⟨v, isIn, rfl⟩ := List.mem_map.1 mem
      exact wf.blocks isIn
    · obtain ⟨inner, isIn, mem⟩ := List.mem_flatMap.1 mem
      rcases List.mem_cons.1 mem with rfl | mem
      · exact (wf.inner isIn).attributes
      · exact ih inner isIn (wf.inner isIn) mem

theorem block_of_mem_walk {outer : List String} {d : Dataset} (wf : d.WellFormed outer)
    {e : NodePath × NodeRef} (mem : e ∈ d.walk) : AttributeBlock e.2.attributes := by
  rcases List.mem_cons.1 mem with rfl | mem
  · exact wf.attributes
  · exact block_of_mem_inside wf mem

theorem mem_attributesWhere {asks : AttributeConstraint → Bool} {path p : NodePath}
    {constraints : List AttributeConstraint}
    (h : p ∈ ProductSpec.attributesWhere asks path constraints) :
    ∃ c ∈ constraints, asks c = true ∧ p = path.child "attributes" c.name := by
  obtain ⟨c, mem, rfl⟩ := List.mem_map.1 h
  obtain ⟨isIn, asked⟩ := List.mem_filter.1 mem
  exact ⟨c, isIn, asked, rfl⟩

/-- No place is named twice. -/
theorem nodup_attributesWhere (asks : AttributeConstraint → Bool) {d : Dataset}
    {outer : List String} (wf : d.WellFormed outer) : (d.attributesWhere asks).Nodup := by
  refine List.nodup_flatMap.2 ⟨fun e mem => ?_, ?_⟩
  · have distinct := (block_of_mem_walk wf mem).names.distinct
    exact nodup_children e.1 "attributes" (distinct.sublist (List.filter_sublist.map _))
  · refine (List.pairwise_map.1 (nodup_walk wf)).imp fun {a b} unlike p mem mem' => ?_
    obtain ⟨c, -, -, rfl⟩ := mem_attributesWhere mem
    obtain ⟨c', -, -, same⟩ := mem_attributesWhere mem'
    exact unlike (List.append_inj_left' same rfl)

/-- All that the report on an example file holds. -/
theorem found_exampleFile {d : Dataset} (wf : d.WellFormed []) (o : ValidationOptions) :
    (d.validate o (d.exampleFile unlimitedLength)).diagnostics.map
        (fun x => (x.path, x.category)) =
      d.nanAttributes.map fun p => (p, .valueMismatch) := by
  have found : DiffersAt (d.check o [] NodePath.root (d.exampleFile unlimitedLength))
      d.nanAttributes := by
    rw [exampleFile_eq]
    exact check_example unlimitedLength wf (fun _ mem => absurd mem List.not_mem_nil) o
      NodePath.root _
  rw [validate, (Report.ofEntries_eq _).1, List.map_filterMap, ← found]
  congr 1
  funext e
  cases e <;> rfl

end Group

namespace Definition

/-- An example file for a compiled definition differs from it just where the definition asks for
a NaN, once at each place. -/
theorem validate_exampleFile (d : Definition) (name : String) (defaults : Defaults)
    {dataset : Dataset} (h : d.compileNamed name defaults = .ok dataset)
    (unlimitedLength : Nat) (o : ValidationOptions) :
    (dataset.validate o (dataset.exampleFile unlimitedLength)).diagnostics.map
        (fun x => (x.path, x.category)) =
      dataset.nanAttributes.map (fun p => (p, .valueMismatch)) ∧
    dataset.nanAttributes.Nodup ∧
    ((∀ e ∈ dataset.walk, ∀ c ∈ e.2.attributes, c.holdsNaN = false) →
      (dataset.validate o (dataset.exampleFile unlimitedLength)).diagnostics = []) := by
  have wf : dataset.WellFormed [] := (Section.of_compile d.body h).2.2
  have found := Group.found_exampleFile unlimitedLength wf o
  refine ⟨found, Group.nodup_attributesWhere AttributeConstraint.holdsNaN wf, fun plain => ?_⟩
  have nowhere : dataset.nanAttributes = [] := by
    refine List.flatMap_eq_nil_iff.2 fun e mem => List.eq_nil_iff_forall_not_mem.2 fun p isIn => ?_
    obtain ⟨c, inBlock, nan, -⟩ := Group.mem_attributesWhere isIn
    rw [plain e mem c inBlock] at nan
    cases nan
  rw [nowhere] at found
  exact List.map_eq_nil_iff.1 found

/-- A definition that asks for a NaN in its root and, as one number of a list, in a variable. -/
def undefinedLimits : Definition where
  shortName := none
  filePattern := none
  description := none
  canonicalName := none
  body :=
    ⟨⟨[(.text "fill", .float .nan), (.text "title", .text "<str:derived_from_file>")], by decide⟩,
      [⟨"time", none, true, none⟩], [],
      [(⟨"profile", false, none⟩, ⟨.empty, [⟨"level", some 3, true, none⟩],
        [⟨"wind", "int8", true, none, ["time", "level"],
          ⟨[(.text "limits", .sequence [.int 0, .float .nan])], by decide⟩⟩], []⟩)]⟩

theorem validate_exampleFile_undefinedLimits : ∃ dataset,
    undefinedLimits.compileNamed "sounding" .empty = .ok dataset ∧
      (dataset.validate .standard (dataset.exampleFile 7)).diagnostics.map
          (fun x => (x.path, x.category)) =
        [(["root", "attributes", "fill"], .valueMismatch),
          (["root", "groups", "profile", "variables", "wind", "attributes", "limits"],
            .valueMismatch)] :=
  ⟨_, rfl, (validate_exampleFile undefinedLimits "sounding" .empty rfl 7 .standard).1⟩

end Definition

end ProductSpec
