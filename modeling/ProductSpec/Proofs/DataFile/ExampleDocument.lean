/-
  The document of an example file. All values in it are made up for constraints, and such a value
  is faithful unless a float in it is not finite; so the document is read as the file if its floats
  are read as themselves.
-/
import ProductSpec.Proofs.DataFile.Example
import ProductSpec.Proofs.DataFile.RoundTrip

namespace ProductSpec

open Number

namespace Literal

theorem baseType_of_storeInt32? {n : Int64} {s : Scalar} (h : storeInt32? n = some s) :
    s.baseType = .int32 := by
  unfold storeInt32? at h
  split at h
  · cases h
    rfl
  · cases h

theorem exists_of_mem_mapM_storeInt32? {numbers : List Int64} {small : List Scalar}
    (h : numbers.mapM storeInt32? = some small) {s : Scalar} (mem : s ∈ small) :
    ∃ n, storeInt32? n = some s := by
  induction numbers generalizing small with
  | nil =>
    cases h
    cases mem
  | cons n rest ih =>
    rw [List.mapM_cons] at h
    obtain ⟨first, stored, h⟩ := Option.bind_eq_some_iff.1 h
    obtain ⟨others, storedOthers, h⟩ := Option.bind_eq_some_iff.1 h
    cases h
    rcases List.mem_cons.1 mem with rfl | mem
    · exact ⟨n, stored⟩
    · exact ih storedOthers mem

/-- Whatever is stored for a literal, the elements of an array are of its type. -/
theorem uniform_toValue (l : Literal) : l.toValue.Uniform := by
  cases l with
  | text | float | int => trivial
  | list items =>
    rw [toValue]
    split
    · intro s mem
      obtain ⟨item, -, made⟩ := List.mem_filterMap.1 mem
      obtain ⟨text, -, rfl⟩ := Option.map_eq_some_iff.1 made
      rfl
    · split
      · dsimp only
        split
        · next small stored =>
          intro s mem
          obtain ⟨n, fits⟩ := exists_of_mem_mapM_storeInt32? stored mem
          exact baseType_of_storeInt32? fits
        · intro s mem
          obtain ⟨n, -, rfl⟩ := List.mem_map.1 mem
          rfl
      · intro s mem
        obtain ⟨item, -, made⟩ := List.mem_filterMap.1 mem
        obtain ⟨x, -, rfl⟩ := Option.map_eq_some_iff.1 made
        rfl

/-- A literal that holds a NaN has it among its floats, and it is stored. -/
theorem exists_isNaN {l : Literal} (h : l.holdsNaN = true) :
    ∃ x, x.isNaN = true ∧ x ∈ l.floats ∧ x ∈ l.toValue.floats := by
  cases l with
  | text s | int n => cases h
  | float x => exact ⟨x, h, List.mem_singleton_self x, List.mem_singleton_self x⟩
  | list items =>
    obtain ⟨item, mem, nan⟩ := List.any_eq_true.1 h
    cases item with
    | text s | int n | list items => cases nan
    | float x =>
      -- With a float in it the list is one of doubles.
      have texts : items.all isText = false := List.all_eq_false.2 ⟨_, mem, nofun⟩
      have ints : items.all isInt = false := List.all_eq_false.2 ⟨_, mem, nofun⟩
      have stored : Scalar.float64 x ∈ items.filterMap fun i => i.double?.map .float64 :=
        List.mem_filterMap.2 ⟨_, mem, rfl⟩
      refine ⟨x, nan, mem_floatsOfItems.2 ⟨_, mem, List.mem_singleton_self x⟩, ?_⟩
      rw [toValue, texts, ints]
      exact List.mem_flatMap.2 ⟨_, stored, List.mem_singleton_self x⟩

end Literal

theorem AttributeConstraint.uniform_exampleValue (c : AttributeConstraint) :
    c.exampleValue.Uniform := by
  unfold exampleValue
  cases c.kind with
  | literal l => exact l.uniform_toValue
  | placeholder p =>
    dsimp only
    split
    · intro s mem
      rw [List.mem_singleton.1 mem]
      exact Scalar.baseType_sample p.baseType
    · trivial

theorem AttributeConstraint.exists_isNaN {c : AttributeConstraint} (h : c.holdsNaN = true) :
    ∃ x, x.isNaN = true ∧ x ∈ c.floats ∧ x ∈ c.exampleValue.floats := by
  obtain ⟨name, kind⟩ := c
  cases kind with
  | placeholder p => cases h
  | literal l => exact Literal.exists_isNaN h

theorem exampleValue_mem_exampleAttributes {constraints : List AttributeConstraint}
    (block : AttributeBlock constraints) {c : AttributeConstraint} (mem : c ∈ constraints) :
    c.exampleValue ∈ (exampleAttributes constraints).values := by
  have found := get?_exampleAttributes mem block.names.distinct
  exact List.mem_map_of_mem (f := Prod.snd) (NameMap.mem_of_get? found)

theorem mem_values_exampleAttributes {constraints : List AttributeConstraint} {v : AttributeValue}
    (h : v ∈ (exampleAttributes constraints).values) :
    ∃ c : AttributeConstraint, v = c.exampleValue := by
  obtain ⟨e, mem, rfl⟩ := List.mem_map.1 h
  obtain ⟨c, -, rfl⟩ := List.mem_map.1 (NameMap.mem_of_mem_ofList mem)
  exact ⟨c, rfl⟩

namespace Group

/-- The values in an example are those made up for constraints. -/
theorem mem_values_exampleNamed {unlimitedLength : Nat} {label : String} {g : Group}
    {v : AttributeValue} (h : v ∈ (g.exampleNamed unlimitedLength label).values) :
    ∃ c : AttributeConstraint, v = c.exampleValue := by
  induction g using induction generalizing label with
  | step g ih =>
    rw [FileGroup.values_eq] at h
    simp only [List.mem_append, List.mem_flatMap] at h
    rcases h with (mem | ⟨w, isIn, mem⟩) | ⟨inner, isIn, mem⟩
    · exact mem_values_exampleAttributes mem
    · obtain ⟨var, -, rfl⟩ := List.mem_map.1 isIn
      exact mem_values_exampleAttributes mem
    · obtain ⟨group, isGroup, rfl⟩ := List.mem_map.1 isIn
      rw [exampleGroup_eq] at mem
      exact ih group isGroup mem

/-- For every constraint there is a value in the example. -/
theorem exampleValue_mem_values {unlimitedLength : Nat} {label : String} {outer : List String}
    {g : Group} (wf : g.WellFormed outer) (path : NodePath) {c : AttributeConstraint}
    (h : c ∈ g.attributes ∨ ∃ e ∈ g.inside path, c ∈ e.2.attributes) :
    c.exampleValue ∈ (g.exampleNamed unlimitedLength label).values := by
  induction g using induction generalizing outer path label with
  | step g ih =>
    rw [FileGroup.values_eq]
    simp only [List.mem_append, List.mem_flatMap]
    rcases h with mem | ⟨e, isInside, mem⟩
    · exact .inl (.inl (exampleValue_mem_exampleAttributes wf.attributes mem))
    · rw [inside_eq, List.mem_append, List.mem_append] at isInside
      rcases isInside with (isIn | isIn) | isIn
      · obtain ⟨d, -, rfl⟩ := List.mem_map.1 isIn
        cases mem
      · obtain ⟨v, isVar, rfl⟩ := List.mem_map.1 isIn
        exact .inl (.inr ⟨_, List.mem_map_of_mem isVar,
          exampleValue_mem_exampleAttributes (wf.blocks isVar) mem⟩)
      · obtain ⟨inner, isGroup, isIn⟩ := List.mem_flatMap.1 isIn
        refine .inr ⟨_, List.mem_map_of_mem isGroup, ?_⟩
        rw [exampleGroup_eq]
        rcases List.mem_cons.1 isIn with rfl | isIn
        · exact ih inner isGroup (wf.inner isGroup) path (.inl mem)
        · exact ih inner isGroup (wf.inner isGroup) _ (.inr ⟨e, isIn, mem⟩)

/-- An example that is read back has no NaN in it. -/
theorem holdsNaN_eq_false {d : Dataset} (wf : d.WellFormed []) {unlimitedLength : Nat}
    (h : (d.exampleFile unlimitedLength).ReadsBack) {e : NodePath × NodeRef} (isNode : e ∈ d.walk)
    {c : AttributeConstraint} (mem : c ∈ e.2.attributes) : c.holdsNaN = false := by
  rw [Bool.eq_false_iff]
  intro nan
  have isValue : c.exampleValue ∈ (d.exampleFile unlimitedLength).values := by
    rw [exampleFile_eq]
    refine exampleValue_mem_values wf NodePath.root ?_
    rcases List.mem_cons.1 isNode with rfl | isInside
    · exact .inl mem
    · exact .inr ⟨e, isInside, mem⟩
  obtain ⟨x, isNaN, -, isIn⟩ := AttributeConstraint.exists_isNaN nan
  rw [Binary.isNaN_of_isFinite (h.isFinite (List.mem_flatMap.2 ⟨_, isValue, isIn⟩))] at isNaN
  cases isNaN

/-- In an example that is read back its dataset finds nothing. -/
theorem diagnostics_exampleFile {d : Dataset} (wf : d.WellFormed []) {unlimitedLength : Nat}
    (h : (d.exampleFile unlimitedLength).ReadsBack) (o : ValidationOptions) :
    (d.validate o (d.exampleFile unlimitedLength)).diagnostics = [] := by
  have nowhere : d.nanAttributes = [] := by
    refine List.eq_nil_iff_forall_not_mem.2 fun p isIn => ?_
    obtain ⟨e, isNode, isIn⟩ := List.mem_flatMap.1 isIn
    obtain ⟨c, mem, nan, -⟩ := mem_attributesWhere isIn
    rw [holdsNaN_eq_false wf h isNode mem] at nan
    cases nan
  have found := found_exampleFile unlimitedLength wf o
  rw [nowhere] at found
  exact List.map_eq_nil_iff.1 found

/-- The document of an example whose floats are read as themselves is read as the example. -/
theorem decodeDocument_exampleFile {d : Dataset} {unlimitedLength : Nat}
    (h : (d.exampleFile unlimitedLength).ReadsBack) (l : Json.Layout) :
    decodeDocument FileGroup.decode (Json.write l (d.exampleFile unlimitedLength).toJson) =
      some (d.exampleFile unlimitedLength) := by
  refine FileGroup.decodeDocument_write (fun v mem => ?_) h
  have finite : ∀ x ∈ v.floats, x.isFinite = true := fun x isIn =>
    h.isFinite (List.mem_flatMap.2 ⟨v, mem, isIn⟩)
  rw [exampleFile_eq] at mem
  obtain ⟨c, rfl⟩ := mem_values_exampleNamed mem
  exact AttributeValue.faithful c.uniform_exampleValue finite

end Group

end ProductSpec
