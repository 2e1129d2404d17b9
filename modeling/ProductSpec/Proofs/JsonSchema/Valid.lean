/-
  The schema of a compiled dataset is a valid schema: the types of each constraint are different
  type names, and no name is required twice.
-/
import ProductSpec.Proofs.JsonSchema.Dataset

namespace ProductSpec

namespace Literal

theorem schemaTypes_of_isPlain {l : Literal} (h : l.IsPlain) :
    l.schemaTypes = ["string"] ∨ l.schemaTypes = ["number"] := by
  cases l with
  | text s => exact .inl (by rw [schemaTypes])
  | int n => exact .inr (by rw [schemaTypes])
  | float x => exact .inr (by rw [schemaTypes])
  | list items => cases h

theorem mem_schemaTypesAll {items : List Literal} {found : List String} {t : String} :
    t ∈ schemaTypesAll found items ↔ t ∈ found ∨ ∃ item ∈ items, t ∈ item.schemaTypes := by
  induction items generalizing found with
  | nil => simp [schemaTypesAll]
  | cons item rest ih =>
    rw [schemaTypesAll, ih, List.mem_append, List.mem_filter, decide_eq_true_eq,
      List.exists_mem_cons_iff]
    tauto

theorem mem_schemaTypes_list {items : List Literal} {t : String} :
    t ∈ (list items).schemaTypes ↔ t = "array" ∨ ∃ item ∈ items, t ∈ item.schemaTypes := by
  rw [schemaTypes, mem_schemaTypesAll, List.mem_singleton]

theorem nodup_schemaTypesAll {items : List Literal} (plain : ∀ l ∈ items, l.IsPlain)
    {found : List String} (distinct : found.Nodup) : (schemaTypesAll found items).Nodup := by
  induction items generalizing found with
  | nil => rwa [schemaTypesAll]
  | cons item rest ih =>
    have single : item.schemaTypes.Nodup := by
      rcases schemaTypes_of_isPlain (plain item List.mem_cons_self) with same | same <;>
        rw [same] <;> exact List.nodup_singleton _
    rw [schemaTypesAll]
    refine ih (fun l mem => plain l (List.mem_cons_of_mem item mem)) ?_
    refine List.nodup_append.2 ⟨distinct, single.filter _, ?_⟩
    rintro t old t' new rfl
    exact of_decide_eq_true (List.mem_filter.1 new).2 old

theorem IsFlat.cases {l : Literal} (h : l.IsFlat) :
    l.IsPlain ∨ ∃ items, l = list items ∧ ∀ item ∈ items, item.IsPlain := by
  cases l with
  | text s => exact .inl h
  | int n => exact .inl h
  | float x => exact .inl h
  | list items => exact .inr ⟨items, rfl, h.1⟩

/-- What a literal can be in a plain document. -/
theorem mem_schemaTypes {l : Literal} (flat : l.IsFlat) {t : String} (h : t ∈ l.schemaTypes) :
    t = "array" ∨ t = "string" ∨ t = "number" := by
  have single : ∀ item : Literal, item.IsPlain → t ∈ item.schemaTypes →
      t = "string" ∨ t = "number" := by
    intro item plain mem
    rcases schemaTypes_of_isPlain plain with same | same <;> rw [same, List.mem_singleton] at mem
    · exact .inl mem
    · exact .inr mem
  rcases flat.cases with plain | ⟨items, rfl, plain⟩
  · exact .inr (single l plain h)
  · rcases mem_schemaTypes_list.1 h with isArray | ⟨item, mem, isType⟩
    · exact .inl isArray
    · exact .inr (single item (plain item mem) isType)

end Literal

namespace JsonSchema

/-- Different names of types, and at least one. -/
structure AreTypes (types : List String) : Prop where
  filled : types ≠ []
  known : types ⊆ typeNames
  distinct : types.Nodup

theorem AreTypes.isTypes {types : List String} (h : AreTypes types) :
    isTypes (texts types) = true := by
  have listed : (types.map Json.text).mapM Json.asText? = some types := texts?_texts types
  have known : types.all (· ∈ typeNames) = true :=
    List.all_eq_true.2 fun t mem => decide_eq_true (h.known mem)
  unfold JsonSchema.isTypes texts
  dsimp only
  rw [listed]
  dsimp only
  rw [known, decide_eq_true h.distinct, Bool.and_true, Bool.and_true, Bool.not_eq_true',
    List.isEmpty_eq_false_iff]
  exact h.filled

theorem areTypes_schemaTypes {l : Literal} (flat : l.IsFlat) : AreTypes l.schemaTypes := by
  have known : l.schemaTypes ⊆ typeNames := by
    intro t mem
    rcases Literal.mem_schemaTypes flat mem with rfl | rfl | rfl <;> decide
  rcases flat.cases with plain | ⟨items, rfl, plain⟩
  · rcases Literal.schemaTypes_of_isPlain plain with same | same <;> rw [same] at known ⊢ <;>
      exact ⟨List.cons_ne_nil _ _, known, List.nodup_singleton _⟩
  · refine ⟨List.ne_nil_of_mem (Literal.mem_schemaTypes_list.2 (.inl rfl)), known, ?_⟩
    rw [Literal.schemaTypes]
    exact Literal.nodup_schemaTypesAll plain (List.nodup_singleton _)

attribute [local simp] isValid areValidMembers isValidMember areValidProperties areSchemas
  areAlternatives areValidAll isValidItems

theorem isValid_object (members : List (String × Json)) :
    isValid (.object members) = members.all fun m => isValidMember m.1 m.2 := by
  rw [isValid]
  induction members with
  | nil => simp
  | cons m rest ih => obtain ⟨keyword, value⟩ := m; simp [ih]

theorem areSchemas_eq (members : List (String × Json)) :
    areSchemas members = members.all fun m => isValid m.2 := by
  induction members with
  | nil => simp
  | cons m rest ih => obtain ⟨name, value⟩ := m; simp [ih]

theorem areValidAll_eq (items : List Json) : areValidAll items = items.all isValid := by
  induction items with
  | nil => simp
  | cons item rest ih => simp [ih]

theorem isValidMember_properties (members : List (String × Json)) :
    isValidMember "properties" (.object members) = members.all fun m => isValid m.2 := by
  simp [areSchemas_eq]

theorem isValidMember_items (members : List (String × Json)) :
    isValidMember "items" (.object members) = isValid (.object members) := by
  simp

theorem isValid_type {types : Json} (h : isTypes types = true) :
    isValid (.object [("type", types)]) = true := by
  simp [h]

theorem isTypes_schemaType (t : BaseType) : isTypes t.schemaType = true := by
  cases t <;> decide

theorem isValid_schema {c : AttributeConstraint} (flat : ∀ l, c.kind = .literal l → l.IsFlat) :
    isValid c.schema = true := by
  unfold AttributeConstraint.schema
  cases kind : c.kind with
  | literal l =>
    have types := areTypes_schemaTypes (flat l kind)
    dsimp only
    split
    · next t same =>
      rw [same] at types
      exact isValid_type (decide_eq_true (types.known List.mem_cons_self))
    · exact isValid_type types.isTypes
  | placeholder p =>
    have one := isValid_type (isTypes_schemaType p.baseType)
    have many : isValid (.object [("items", .object [("type", p.baseType.schemaType)]),
        ("type", .text "array")]) = true := by
      rw [isValid_object, List.all_cons, isValidMember_items, one, List.all_cons, isValidMember]
      rfl
    dsimp only
    split
    · rw [isValid_object, List.all_cons, isValidMember, areAlternatives, one, areValidAll, many,
        areValidAll]
      rfl
    · exact one

theorem isValid_described (i : NodeInfo) (members : List (String × Json)) :
    isValid (.object (description i ++ members)) = isValid (.object members) := by
  rw [isValid_object, isValid_object, List.all_append]
  unfold description
  cases i.description with
  | none => rfl
  | some text =>
    show ((isValidMember "description" (.text text) && true) && _) = _
    rw [isValidMember]
    rfl

theorem isNameList_texts {names : List String} (distinct : names.Nodup) :
    isNameList (texts names) = true := by
  unfold isNameList
  rw [texts?_texts]
  exact decide_eq_true distinct

theorem isValid_of_object {properties : List (String × Json)} {required : List String}
    (schemas : ∀ m ∈ properties, isValid m.2 = true) (distinct : required.Nodup) :
    isValid (.object (object (.object properties) required)) = true := by
  rw [isValid_object, object, List.all_cons, isValidMember_properties, List.all_eq_true.2 schemas,
    List.all_cons, isValidMember, isNameList_texts distinct, List.all_cons, isValidMember]
  rfl

theorem isValid_keyed {α : Type} {items : List α} {name : α → String} {isRequired : α → Bool}
    (distinct : (items.map name).Nodup) {schema : α → Json}
    (schemas : ∀ x ∈ items, isValid (schema x) = true) :
    isValid (keyed (items.map fun x => (name x, schema x)) ((items.filter isRequired).map name)) =
      true := by
  refine isValid_of_object (fun m mem => ?_) (distinct.sublist (List.filter_sublist.map name))
  obtain ⟨x, isIn, rfl⟩ := List.mem_map.1 (NameMap.mem_of_mem_ofList mem)
  exact schemas x isIn

theorem isValid_ofAttributes {constraints : List AttributeConstraint}
    (block : AttributeBlock constraints) : isValid (ofAttributes constraints) = true :=
  isValid_keyed block.names.distinct fun c mem => isValid_schema (block.flat c mem)

theorem isValid_ofDimension (d : Dimension) : isValid (ofDimension d) = true := by
  rw [ofDimension, isValid_described, isValid_object, List.all_cons, isValidMember, List.all_cons,
    isValidMember]
  rfl

theorem isValid_ofVariable {v : Variable} (block : AttributeBlock v.attributes) :
    isValid (ofVariable v) = true := by
  have datatype : isValid (.object [("enum", texts [v.dataType.token])]) = true := by
    rw [isValid_object, List.all_cons, isValidMember]
    rfl
  have dimensions : isValid (.object [("items", .object [("type", .text "string")]),
      ("type", .text "array")]) = true := by
    rw [isValid_object, List.all_cons, isValidMember_items, isValid_type rfl, List.all_cons,
      isValidMember]
    rfl
  rw [ofVariable, isValid_described]
  refine isValid_of_object ?_ (by decide)
  simp only [List.forall_mem_cons, List.not_mem_nil, false_implies, implies_true, and_true]
  exact ⟨isValid_ofAttributes block, datatype, dimensions⟩

theorem nodup_requiredParts (g : Group) : (requiredParts g).Nodup := by
  unfold requiredParts
  split <;> split <;> split <;> split <;> decide

theorem isValid_parts {outer : List String} {g : Group} (wf : g.WellFormed outer) :
    ∀ m ∈ partSchemas g, isValid m.2 = true := by
  induction g using Group.induction generalizing outer with
  | step g ih =>
    have groups : ∀ h ∈ g.groups, isValid (ofGroup h) = true := by
      intro h mem
      rw [ofGroup, isValid_described, parts_eq]
      exact isValid_of_object (ih h mem (wf.inner mem)) (nodup_requiredParts h)
    simp only [partSchemas, List.forall_mem_cons, List.not_mem_nil, false_implies, implies_true,
      and_true]
    exact ⟨isValid_ofAttributes wf.attributes,
      isValid_keyed wf.dimensions.distinct fun d _ => isValid_ofDimension d,
      isValid_keyed wf.groups.distinct groups,
      isValid_keyed wf.vars.distinct fun v mem => isValid_ofVariable (wf.blocks mem)⟩

theorem isValid_ofDataset {d : Dataset} (wf : d.WellFormed []) : isValid (ofDataset d) = true := by
  have rest : isValid (.object [("properties", parts d), ("required", texts (requiredParts d)),
      ("title", .text d.productName), ("type", .text "object")]) = true := by
    rw [isValid_object, parts_eq, List.all_cons, isValidMember_properties,
      List.all_eq_true.2 (isValid_parts wf), List.all_cons, isValidMember,
      isNameList_texts (nodup_requiredParts d), List.all_cons, isValidMember, List.all_cons,
      isValidMember]
    rfl
  have version : isValidMember "$schema" draft = true := by
    rw [isValidMember]
    decide
  rw [ofDataset, List.append_assoc, isValid_object, List.singleton_append, List.all_cons, version,
    Bool.true_and, ← isValid_object, isValid_described]
  exact rest

/-- A document is checked against the schema of a compiled dataset, and what is found does not depend
on how references are followed. -/
theorem check?_ofDataset {d : Dataset} (wf : d.WellFormed []) (document : Json) :
    ∃ follow, check? (ofDataset d) document =
      some (violationsWith follow [] document (ofDataset d)) := by
  unfold check?
  rw [if_pos (isValid_ofDataset wf)]
  cases size (ofDataset d) * size document <;> exact ⟨_, congrArg some (violations.eq_def ..)⟩

/-- A schema is a part of another one: the same, one for a member, or one for an element. -/
inductive Subschema (s : Json) : Json → Prop
  | self : Subschema s s
  | property {t : Json} {keyword name : String} {members schemas : List (String × Json)} :
      keyword = "properties" ∨ keyword = "definitions" → (keyword, .object schemas) ∈ members →
      (name, t) ∈ schemas → Subschema s t → Subschema s (.object members)
  | alternative {t : Json} {keyword : String} {members : List (String × Json)} {items : List Json} :
      keyword = "anyOf" ∨ keyword = "items" → (keyword, .array items) ∈ members → t ∈ items →
      Subschema s t → Subschema s (.object members)
  | items {members inner : List (String × Json)} :
      ("items", .object inner) ∈ members → Subschema s (.object inner) →
      Subschema s (.object members)

theorem isValidMember_of_mem {members : List (String × Json)}
    (valid : isValid (.object members) = true) {keyword : String} {value : Json}
    (mem : (keyword, value) ∈ members) : isValidMember keyword value = true := by
  rw [isValid_object] at valid
  exact List.all_eq_true.1 valid _ mem

/-- The parts of a valid schema are valid. -/
theorem Subschema.isValid {s t : Json} (h : Subschema s t) (valid : isValid t = true) :
    isValid s = true := by
  induction h with
  | self => exact valid
  | @property _ _ _ _ schemas named mem isIn _ ih =>
    have all : areSchemas schemas = true := by
      have member := isValidMember_of_mem valid mem
      rcases named with rfl | rfl <;> simpa using member
    rw [areSchemas_eq] at all
    exact ih (List.all_eq_true.1 all _ isIn)
  | @alternative _ _ _ items named mem isIn _ ih =>
    have all : areValidAll items = true := by
      have member := isValidMember_of_mem valid mem
      cases items with
      | nil => cases isIn
      | cons item rest => rcases named with rfl | rfl <;> simpa using member
    rw [areValidAll_eq] at all
    exact ih (List.all_eq_true.1 all _ isIn)
  | items mem _ ih =>
    have member := isValidMember_of_mem valid mem
    rw [isValidMember_items] at member
    exact ih member

theorem eq_texts_of_mapM {items : List Json} {names : List String}
    (h : items.mapM Json.asText? = some names) : items = names.map .text := by
  induction items generalizing names with
  | nil =>
    cases h
    rfl
  | cons item rest ih =>
    rw [List.mapM_cons] at h
    obtain ⟨s, isText, h⟩ := Option.bind_eq_some_iff.1 h
    obtain ⟨others, areTexts, h⟩ := Option.bind_eq_some_iff.1 h
    cases h
    cases item with
    | text t =>
      cases isText
      rw [ih areTexts, List.map_cons]
    | null | bool | int | float | array | object => cases isText

/-- A valid schema names nothing twice, neither among the required names nor among the types. -/
theorem nodup_of_isValid {members : List (String × Json)}
    (valid : isValid (.object members) = true) {keyword : String} {items : List Json}
    (named : keyword = "required" ∨ keyword = "type") (mem : (keyword, .array items) ∈ members) :
    items.Nodup := by
  have member := isValidMember_of_mem valid mem
  have texts : ∃ names : List String, items = names.map .text ∧ names.Nodup := by
    rcases named with rfl | rfl
    · rw [isValidMember, isNameList, texts?] at member
      split at member
      · next names found => exact ⟨names, eq_texts_of_mapM found, of_decide_eq_true member⟩
      · cases member
    · rw [isValidMember, isTypes] at member
      split at member
      · next names found =>
        rw [Bool.and_eq_true] at member
        exact ⟨names, eq_texts_of_mapM found, of_decide_eq_true member.2⟩
      · cases member
  obtain ⟨names, rfl, distinct⟩ := texts
  exact distinct.map fun _ _ same => Json.text.inj same

end JsonSchema

end ProductSpec
