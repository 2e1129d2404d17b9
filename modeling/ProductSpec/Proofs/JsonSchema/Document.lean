/-
  The JSON Schema of a release as a document: there are no floats in it.
-/
import ProductSpec.JsonSchema.Derive
import ProductSpec.Proofs.Dataset.Walk
import ProductSpec.Proofs.Json.Decode
import ProductSpec.Proofs.NameMap

namespace ProductSpec

open Json

theorem Json.Exact.ofMembers {members : List (String × Json)} (h : ∀ m ∈ members, m.2.Exact) :
    (ofMembers members).Exact :=
  Exact.object_iff.2 fun m mem => h m (NameMap.mem_of_mem_ofList mem)

theorem Json.Exact.ofMap {α : Type} {encode : α → Json} {m : NameMap α}
    (h : ∀ e ∈ m.entries, (encode e.2).Exact) : (ofMap encode m).Exact := by
  refine Exact.object_iff.2 fun member mem => ?_
  obtain ⟨e, isIn, rfl⟩ := List.mem_map.1 mem
  exact h e isIn

theorem BaseType.exact_schemaType (t : BaseType) : t.schemaType.Exact := by
  unfold schemaType
  split
  · exact .texts _
  · exact .text _

theorem AttributeConstraint.exact_schema (c : AttributeConstraint) : c.schema.Exact := by
  unfold schema
  cases c.kind with
  | literal l =>
    dsimp only
    split
    · exact Exact.object_iff.2 (by simp [Exact.text])
    · have types : (JsonSchema.texts l.schemaTypes).Exact := .texts _
      exact Exact.object_iff.2 (by simpa using types)
  | placeholder p =>
    have one : (Json.object [("type", p.baseType.schemaType)]).Exact :=
      Exact.object_iff.2 (by simpa using p.baseType.exact_schemaType)
    dsimp only
    split
    · have many : (Json.object [("items", .object [("type", p.baseType.schemaType)]),
          ("type", .text "array")]).Exact :=
        Exact.object_iff.2 (by simpa [Exact.text] using one)
      exact Exact.object_iff.2 (by simpa [Exact.array_iff] using ⟨one, many⟩)
    · exact one

namespace JsonSchema

theorem exact_description (i : NodeInfo) : ∀ m ∈ description i, m.2.Exact := by
  refine Exact.optional fun v mem => ?_
  obtain ⟨s, -, rfl⟩ := Option.map_eq_some_iff.1 mem
  exact .text s

theorem exact_object {properties : Json} {required : List String} (h : properties.Exact) :
    ∀ m ∈ object properties required, m.2.Exact := by
  simp [object, texts, h, Exact.text, Exact.texts]

theorem exact_keyed {properties : List (String × Json)} {required : List String}
    (h : ∀ m ∈ properties, m.2.Exact) : (keyed properties required).Exact :=
  Exact.object_iff.2 (exact_object (Exact.ofMembers h))

theorem exact_ofAttributes (cs : List AttributeConstraint) : (ofAttributes cs).Exact := by
  refine exact_keyed fun m mem => ?_
  obtain ⟨c, -, rfl⟩ := List.mem_map.1 mem
  exact c.exact_schema

theorem exact_ofDimension (d : Dimension) : (ofDimension d).Exact := by
  refine Exact.object_iff.2 fun m mem => ?_
  rcases List.mem_append.1 mem with mem | mem
  · exact exact_description _ m mem
  · simp only [List.mem_cons, List.not_mem_nil, or_false] at mem
    rcases mem with rfl | rfl
    · exact .int ⟨by decide, by decide⟩
    · exact .text _

theorem exact_ofVariable (v : Variable) : (ofVariable v).Exact := by
  refine Exact.object_iff.2 (List.forall_mem_append.2 ⟨exact_description _, exact_object ?_⟩)
  have tokens : (texts [v.dataType.token]).Exact := .texts _
  have datatype : (Json.object [("enum", texts [v.dataType.token])]).Exact :=
    Exact.object_iff.2 (by simpa using tokens)
  have items : (Json.object [("type", .text "string")]).Exact :=
    Exact.object_iff.2 (by simp [Exact.text])
  have dimensions : (Json.object [("items", .object [("type", .text "string")]),
      ("type", .text "array")]).Exact :=
    Exact.object_iff.2 (by simpa [Exact.text] using items)
  exact Exact.object_iff.2 (by simpa using ⟨exact_ofAttributes _, datatype, dimensions⟩)

/-- The schema of a group in the list of groups it is in. -/
def memberOf (g : Group) : String × Json :=
  (g.name, .object (description g.info ++ object (parts g) (requiredParts g)))

theorem ofGroups_eq (groups : List Group) : ofGroups groups = groups.map memberOf := by
  induction groups with
  | nil => rfl
  | cons g rest ih => rw [ofGroups, ih, List.map_cons, memberOf]

theorem exact_parts (g : Group) : (parts g).Exact := by
  induction g using Group.induction with
  | step g ih =>
    obtain ⟨name, info, attributes, dimensions, vars, groups⟩ := g
    rw [parts, ofGroups_eq]
    have inDimensions : ∀ m ∈ dimensions.map (fun d => (d.name, ofDimension d)), m.2.Exact := by
      intro m mem
      obtain ⟨d, -, rfl⟩ := List.mem_map.1 mem
      exact exact_ofDimension d
    have inVars : ∀ m ∈ vars.map (fun v => (v.name, ofVariable v)), m.2.Exact := by
      intro m mem
      obtain ⟨v, -, rfl⟩ := List.mem_map.1 mem
      exact exact_ofVariable v
    have inGroups : ∀ m ∈ groups.map memberOf, m.2.Exact := by
      intro m mem
      obtain ⟨inner, isIn, rfl⟩ := List.mem_map.1 mem
      refine Exact.object_iff.2 (List.forall_mem_append.2 ⟨exact_description _, ?_⟩)
      exact exact_object (ih inner isIn)
    refine Exact.object_iff.2 fun m mem => ?_
    simp only [List.mem_cons, List.not_mem_nil, or_false] at mem
    rcases mem with rfl | rfl | rfl | rfl
    · exact exact_ofAttributes attributes
    · exact exact_keyed inDimensions
    · exact exact_keyed inGroups
    · exact exact_keyed inVars

theorem exact_ofGroup (g : Group) : (ofGroup g).Exact :=
  Exact.object_iff.2 <|
    List.forall_mem_append.2 ⟨exact_description _, exact_object (exact_parts g)⟩

theorem exact_ofProducts (products : NameMap Dataset) : (ofProducts products).Exact := by
  refine Exact.object_iff.2 fun m mem => ?_
  simp only [List.mem_cons, List.not_mem_nil, or_false] at mem
  rcases mem with rfl | rfl | rfl | rfl
  · exact .text _
  · refine Exact.array_iff.2 fun item mem => ?_
    obtain ⟨name, -, rfl⟩ := List.mem_map.1 mem
    exact Exact.object_iff.2 (by simp [Exact.text])
  · exact .ofMap fun e _ => exact_ofGroup e.2
  · exact .text _

end JsonSchema

end ProductSpec
