/-
  Datasets that differ in their floats alone. A report on the example file of one tells it from
  every other, as long as it asks for no NaN.
-/
import ProductSpec.Proofs.DataFile.ExampleDocument
import ProductSpec.Proofs.Dataset.RoundTrip
import ProductSpec.Proofs.Validation.Silent

namespace ProductSpec

open Number

variable {f : Double → Double}

namespace Literal

theorem mapFloatsOfItems_eq (f : Double → Double) (items : List Literal) :
    mapFloatsOfItems f items = items.map (mapFloats f) := by
  induction items with
  | nil => rfl
  | cons item rest ih => rw [mapFloatsOfItems, ih, List.map_cons]

/-- A flat list with a float in it is stored as one of doubles. -/
theorem toValue_eq_doubles {items : List Literal} (flat : (list items).IsFlat) {x : Double}
    (mem : float x ∈ items) :
    (list items).toValue =
      .array .float64 (items.map fun i => .float64 (i.double?.getD .nan)) := by
  obtain ⟨plain, oneFamily⟩ := flat
  have numbers : ∀ l ∈ items, l.isText = false :=
    oneFamily.resolve_left fun texts => Bool.false_ne_true (texts _ mem)
  have texts : items.all isText = false := List.all_eq_false.2 ⟨_, mem, nofun⟩
  have ints : items.all isInt = false := List.all_eq_false.2 ⟨_, mem, nofun⟩
  rw [toValue, texts, ints]
  refine congrArg (AttributeValue.array .float64) ?_
  rw [← List.filterMap_eq_map]
  refine List.filterMap_congr fun l isIn => ?_
  cases l with
  | int n | float x => rfl
  | text s => cases numbers _ isIn
  | list items => cases plain _ isIn

/-- The value stored for a literal matches it with other floats only if these are equal to its
own. -/
theorem equal_of_matches_toValue {l : Literal} (flat : l.IsFlat)
    (matched : (l.mapFloats f).matches l.toValue = true) : ∀ x ∈ l.floats, (x == f x) = true := by
  intro x mem
  cases l with
  | int n | text s => cases mem
  | float y =>
    obtain rfl := List.mem_singleton.1 mem
    exact matched
  | list items =>
    obtain ⟨item, isIn, mem⟩ := mem_floatsOfItems.1 mem
    cases item with
    | int n | text s => cases mem
    | list inner => cases flat.1 _ isIn
    | float y =>
      obtain rfl := List.mem_singleton.1 mem
      rw [toValue_eq_doubles flat isIn, mapFloats, mapFloatsOfItems_eq] at matched
      obtain ⟨-, each⟩ := (Bool.and_eq_true _ _).mp matched
      rw [List.zip_map', List.all_map] at each
      exact List.all_eq_true.1 each _ isIn

end Literal

theorem AttributeConstraint.equal_of_meets_exampleValue {c : AttributeConstraint}
    (flat : ∀ l, c.kind = .literal l → l.IsFlat)
    (meets : (c.mapFloats f).meets c.exampleValue = true) :
    ∀ x ∈ c.floats, (x == f x) = true := by
  obtain ⟨name, kind⟩ := c
  cases kind with
  | literal l => exact Literal.equal_of_matches_toValue (flat l rfl) meets
  | placeholder p => nofun

theorem equal_of_silent_attributes {constraints : List AttributeConstraint}
    (block : AttributeBlock constraints) {o : ValidationOptions} {path : NodePath}
    (silent : Silent (checkAttributes o path
      (constraints.map (AttributeConstraint.mapFloats f)) (exampleAttributes constraints))) :
    ∀ x ∈ constraints.flatMap AttributeConstraint.floats, (x == f x) = true := by
  intro x mem
  obtain ⟨c, isIn, mem⟩ := List.mem_flatMap.1 mem
  have accepted := (silent_checkAttributes.1 silent).1 _ (List.mem_map_of_mem isIn)
  rw [show (c.mapFloats f).name = c.name from rfl,
    get?_exampleAttributes isIn block.names.distinct] at accepted
  exact AttributeConstraint.equal_of_meets_exampleValue (block.flat c isIn) accepted x mem

namespace Group

theorem name_mapFloats (f : Double → Double) (g : Group) : (g.mapFloats f).name = g.name := by
  obtain ⟨name, info, attributes, dimensions, vars, groups⟩ := g
  rfl

/-- A dataset with other floats that accepts the example file of the dataset has equal ones. -/
theorem equal_of_silent_example (unlimitedLength : Nat) {outer : List String} {g : Group}
    (wf : g.WellFormed outer) {o : ValidationOptions} {scope : Scope} {path : NodePath}
    {label : String}
    (silent : Silent ((g.mapFloats f).check o scope path (g.exampleNamed unlimitedLength label))) :
    ∀ x ∈ g.floats, (x == f x) = true := by
  induction g using induction generalizing outer scope path label with
  | step g ih =>
    obtain ⟨inAttributes, -, inVars, inGroups, -⟩ := silent_check.1 silent
    have same : (g.mapFloats f).attributes = g.attributes.map (AttributeConstraint.mapFloats f) ∧
        (g.mapFloats f).vars = g.vars.map (Variable.mapFloats f) ∧
          (g.mapFloats f).groups = g.groups.map (mapFloats f) := by
      obtain ⟨name, info, attributes, dimensions, vars, groups⟩ := g
      rw [mapFloats, mapFloatsOfAll_eq]
      exact ⟨rfl, rfl, rfl⟩
    intro x mem
    rw [floats_eq, List.mem_append, List.mem_append] at mem
    rcases mem with (mem | mem) | mem
    · rw [same.1] at inAttributes
      exact equal_of_silent_attributes wf.attributes inAttributes x mem
    · obtain ⟨v, isIn, mem⟩ := List.mem_flatMap.1 mem
      have quiet := inVars _ (same.2.1 ▸ List.mem_map_of_mem isIn)
      rw [Variable.check, show (v.mapFloats f).name = v.name from rfl,
        variableNamed?_exampleNamed wf.vars.distinct isIn] at quiet
      exact equal_of_silent_attributes (wf.blocks isIn) (silent_append.1 quiet).2 x mem
    · obtain ⟨h, isIn, mem⟩ := List.mem_flatMap.1 mem
      have quiet := inGroups _ (same.2.2 ▸ List.mem_map_of_mem isIn)
      rw [checkInner, name_mapFloats, groupNamed?_exampleNamed wf.groups.distinct isIn] at quiet
      have behind := (silent_append.1 (show Silent ([.pass _] ++ _) from quiet)).2
      exact ih h isIn (wf.inner isIn) behind x mem

theorem mem_floats_of_mem_inside {g : Group} {path : NodePath} {e : NodePath × NodeRef}
    (mem : e ∈ g.inside path) {c : AttributeConstraint} (isIn : c ∈ e.2.attributes) {x : Double}
    (isFloat : x ∈ c.floats) : x ∈ g.floats := by
  have found : x ∈ e.2.attributes.flatMap AttributeConstraint.floats :=
    List.mem_flatMap.2 ⟨c, isIn, isFloat⟩
  induction g using induction generalizing path with
  | step g ih =>
    rw [floats_eq, List.mem_append, List.mem_append]
    rw [inside_eq, List.mem_append, List.mem_append] at mem
    rcases mem with (mem | mem) | mem
    · obtain ⟨d, -, rfl⟩ := List.mem_map.1 mem
      cases isIn
    · obtain ⟨v, inVars, rfl⟩ := List.mem_map.1 mem
      exact .inl (.inr (List.mem_flatMap.2 ⟨v, inVars, found⟩))
    · obtain ⟨h, inGroups, mem⟩ := List.mem_flatMap.1 mem
      refine .inr (List.mem_flatMap.2 ⟨h, inGroups, ?_⟩)
      rcases List.mem_cons.1 mem with rfl | mem
      · rw [floats_eq, List.mem_append, List.mem_append]
        exact .inl (.inl found)
      · exact ih h inGroups mem

/-- The attributes of a dataset hold all its floats. -/
theorem mem_floats_of_mem_walk {d : Dataset} {e : NodePath × NodeRef} (mem : e ∈ d.walk)
    {c : AttributeConstraint} (isIn : c ∈ e.2.attributes) {x : Double} (isFloat : x ∈ c.floats) :
    x ∈ d.floats := by
  rcases List.mem_cons.1 mem with rfl | mem
  · rw [floats_eq, List.mem_append, List.mem_append]
    exact .inl (.inl (List.mem_flatMap.2 ⟨c, isIn, isFloat⟩))
  · exact mem_floats_of_mem_inside mem isIn isFloat

theorem nanAttributes_of_finite {d : Dataset} (finite : ∀ x ∈ d.floats, x.isFinite = true) :
    d.nanAttributes = [] := by
  refine List.flatMap_eq_nil_iff.2 fun e mem => List.eq_nil_iff_forall_not_mem.2 fun p isIn => ?_
  obtain ⟨c, inBlock, nan, -⟩ := mem_attributesWhere isIn
  obtain ⟨x, isNaN, isFloat, -⟩ := AttributeConstraint.exists_isNaN nan
  rw [Binary.isNaN_of_isFinite (finite x (mem_floats_of_mem_walk mem inBlock isFloat))] at isNaN
  cases isNaN

/-- A dataset with other floats that gives the same reports has equal ones. -/
theorem equal_of_same_reports {d : Dataset} (wf : d.WellFormed [])
    (finite : ∀ x ∈ d.floats, x.isFinite = true)
    (same : ∀ o file, (d.mapFloats f).validate o file = d.validate o file) :
    ∀ x ∈ d.floats, (x == f x) = true := by
  have none : ((d.mapFloats f).validate .standard (d.exampleFile 1)).diagnostics = [] := by
    have found := found_exampleFile 1 wf .standard
    rw [nanAttributes_of_finite finite] at found
    rw [same]
    exact List.map_eq_nil_iff.1 found
  have silent := silent_of_validate none
  rw [exampleFile_eq] at silent
  exact equal_of_silent_example 1 wf silent

end Group

end ProductSpec
