/-
  The schema of a release against those of its products. What the schema of a product finds does
  not depend on how references are followed, so a release accepts what the definitions accept that
  its references lead to; and these are all of them if each name stays as it is in a fragment.
-/
import ProductSpec.JsonSchema.Derive
import ProductSpec.Proofs.Definition.Shape
import ProductSpec.Proofs.JsonSchema.Reference
import ProductSpec.Proofs.JsonSchema.Valid

namespace ProductSpec

namespace JsonSchema

/-- What a member of a schema finds does not depend on how references are followed. -/
def IsLocalMember (m : String × Json) : Prop :=
  ∀ follow follow' location value,
    ofKeyword follow location value m.1 m.2 = ofKeyword follow' location value m.1 m.2

/-- What a schema finds does not depend on how references are followed. -/
def IsLocal (schema : Json) : Prop :=
  ∀ follow follow' location value,
    violationsWith follow location value schema = violationsWith follow' location value schema

section Local

theorem isAnyOfAll_eq (follow : Follow) (location : List Step) (value : Json)
    (schemas : List Json) :
    isAnyOfAll follow location value schemas =
      schemas.any fun s => (violationsWith follow location value s).isEmpty := by
  induction schemas with
  | nil => rw [isAnyOfAll, List.any_nil]
  | cons s rest ih => rw [isAnyOfAll, ih, List.any_cons]

theorem isLocal_object {members : List (String × Json)}
    (standsAlone : members.lookup "$ref" = none) (each : ∀ m ∈ members, IsLocalMember m) :
    IsLocal (.object members) := by
  intro follow follow' location value
  rw [violationsWith_object standsAlone, violationsWith_object standsAlone]
  exact List.flatMap_congr fun m mem => each m mem follow follow' location value

theorem isLocalMember_properties {properties : List (String × Json)}
    (each : ∀ m ∈ properties, IsLocal m.2) : IsLocalMember ("properties", .object properties) := by
  intro follow follow' location value
  show propertyViolations follow location value (.object properties) =
    propertyViolations follow' location value (.object properties)
  unfold propertyViolations
  cases value with
  | object members =>
    simp only [memberViolations_eq]
    refine List.flatMap_congr fun m mem => ?_
    cases members.lookup m.1 with
    | none => rfl
    | some value => exact each m mem follow follow' _ value
  | _ => rfl

theorem isLocalMember_items {members : List (String × Json)} (h : IsLocal (.object members)) :
    IsLocalMember ("items", .object members) := by
  intro follow follow' location value
  show itemViolations follow location value (.object members) =
    itemViolations follow' location value (.object members)
  unfold itemViolations
  cases value with
  | array items => exact List.flatMap_congr fun item _ => h follow follow' _ item.1
  | _ => rfl

theorem isLocalMember_anyOf {schemas : List Json} (each : ∀ s ∈ schemas, IsLocal s) :
    IsLocalMember ("anyOf", .array schemas) := by
  intro follow follow' location value
  have same : isAnyOf follow location value (.array schemas) =
      isAnyOf follow' location value (.array schemas) := by
    rw [isAnyOf, isAnyOf, isAnyOfAll_eq, isAnyOfAll_eq]
    rw [Bool.eq_iff_iff, List.any_eq_true, List.any_eq_true]
    exact exists_congr fun s => and_congr_right fun mem => by
      rw [each s mem follow follow' location value]
  show (if _ then _ else _) = (if _ then _ else _)
  rw [same]

theorem isLocal_described (i : NodeInfo) {members : List (String × Json)}
    (standsAlone : members.lookup "$ref" = none) (h : IsLocal (.object members)) :
    IsLocal (.object (description i ++ members)) := by
  intro follow follow' location value
  have same := h follow follow' location value
  rw [violationsWith_object standsAlone, violationsWith_object standsAlone] at same
  rw [violationsWith_described i standsAlone, violationsWith_described i standsAlone, same]

theorem isLocal_type (types : Json) : IsLocal (.object [("type", types)]) :=
  isLocal_object rfl (List.forall_mem_singleton.2 fun _ _ _ _ => rfl)

theorem isLocal_array {members : List (String × Json)} (one : IsLocal (.object members)) :
    IsLocal (.object [("items", .object members), ("type", .text "array")]) := by
  refine isLocal_object rfl ?_
  simp only [List.forall_mem_cons, List.not_mem_nil, false_implies, implies_true, and_true]
  exact ⟨isLocalMember_items one, fun _ _ _ _ => rfl⟩

theorem isLocal_of_object {properties : List (String × Json)} (required : List String)
    (each : ∀ m ∈ properties, IsLocal m.2) :
    IsLocal (.object (object (.object properties) required)) := by
  refine isLocal_object rfl ?_
  simp only [object, List.forall_mem_cons, List.not_mem_nil, false_implies, implies_true, and_true]
  exact ⟨isLocalMember_properties each, fun _ _ _ _ => rfl, fun _ _ _ _ => rfl⟩

theorem isLocal_keyed {α : Type} {items : List α} {name : α → String} (required : List String)
    {schema : α → Json} (each : ∀ x ∈ items, IsLocal (schema x)) :
    IsLocal (keyed (items.map fun x => (name x, schema x)) required) := by
  refine isLocal_of_object required fun m mem => ?_
  obtain ⟨x, isIn, rfl⟩ := List.mem_map.1 (NameMap.mem_of_mem_ofList mem)
  exact each x isIn

theorem isLocal_schema (c : AttributeConstraint) : IsLocal c.schema := by
  unfold AttributeConstraint.schema
  cases c.kind with
  | literal l =>
    dsimp only
    split <;> exact isLocal_type _
  | placeholder p =>
    dsimp only
    split
    · have one := isLocal_type p.baseType.schemaType
      refine isLocal_object rfl (List.forall_mem_singleton.2 (isLocalMember_anyOf ?_))
      simp only [List.forall_mem_cons, List.not_mem_nil, false_implies, implies_true, and_true]
      exact ⟨one, isLocal_array one⟩
    · exact isLocal_type _

theorem isLocal_ofAttributes (constraints : List AttributeConstraint) :
    IsLocal (ofAttributes constraints) :=
  isLocal_keyed _ fun c _ => isLocal_schema c

theorem isLocal_ofDimension (d : Dimension) : IsLocal (ofDimension d) := by
  refine isLocal_described d.info rfl (isLocal_object rfl ?_)
  simp only [List.forall_mem_cons, List.not_mem_nil, false_implies, implies_true, and_true]
  exact ⟨fun _ _ _ _ => rfl, fun _ _ _ _ => rfl⟩

theorem isLocal_ofVariable (v : Variable) : IsLocal (ofVariable v) := by
  have datatype : IsLocal (.object [("enum", texts [v.dataType.token])]) :=
    isLocal_object rfl (List.forall_mem_singleton.2 fun _ _ _ _ => rfl)
  have dimensions : IsLocal (.object [("items", .object [("type", .text "string")]),
      ("type", .text "array")]) := isLocal_array (isLocal_type _)
  refine isLocal_described v.info rfl (isLocal_of_object _ ?_)
  simp only [List.forall_mem_cons, List.not_mem_nil, false_implies, implies_true, and_true]
  exact ⟨isLocal_ofAttributes v.attributes, datatype, dimensions⟩

theorem isLocal_ofGroup (g : Group) : IsLocal (ofGroup g) := by
  induction g using Group.induction with
  | step g ih =>
    refine isLocal_described g.info rfl ?_
    rw [parts_eq]
    refine isLocal_of_object _ ?_
    simp only [partSchemas, List.forall_mem_cons, List.not_mem_nil, false_implies, implies_true,
      and_true]
    exact ⟨isLocal_ofAttributes g.attributes, isLocal_keyed _ fun d _ => isLocal_ofDimension d,
      isLocal_keyed _ ih, isLocal_keyed _ fun v _ => isLocal_ofVariable v⟩

end Local

section Products

variable {products : NameMap Dataset}

/-- The version and the title of a schema say nothing about a value. -/
theorem violations_ofDataset_eq (follow : Follow) (location : List Step) (value : Json)
    (d : Dataset) :
    violationsWith follow location value (ofDataset d) =
      violationsWith follow location value (ofGroup d) := by
  rw [ofGroup, violationsWith_described d.info rfl, ofDataset]
  unfold description
  cases d.info.description <;> exact violationsWith_object rfl

theorem check?_ofDataset_iff {d : Dataset} (wf : d.WellFormed []) (follow : Follow)
    (document : Json) :
    check? (ofDataset d) document = some [] ↔
      violationsWith follow [] document (ofGroup d) = [] := by
  obtain ⟨follow', checked⟩ := check?_ofDataset wf document
  rw [checked, Option.some.injEq, violations_ofDataset_eq, isLocal_ofGroup d follow' follow]

theorem isValid_ofGroup {g : Group} {outer : List String} (wf : g.WellFormed outer) :
    isValid (ofGroup g) = true := by
  rw [ofGroup, isValid_described, parts_eq]
  exact isValid_of_object (isValid_parts wf) (nodup_requiredParts g)

/-- The references of a release to its products. -/
def references (products : NameMap Dataset) : List Json :=
  products.names.map fun name => .object [("$ref", .text (referenceTo name))]

theorem isValidMember_references (products : NameMap Dataset) :
    isValidMember "anyOf" (.array (references products)) = true ↔
      products.names ≠ [] ∧ ∀ name ∈ products.names, isReference (referenceTo name) = true := by
  have single (name : String) :
      isValid (.object [("$ref", .text (referenceTo name))]) = isReference (referenceTo name) := by
    rw [isValid_object, List.all_cons, isValidMember, List.all_nil, Bool.and_true]
    rfl
  rw [isValidMember, references]
  cases products.names with
  | nil => rw [List.map_nil, areAlternatives] <;> simp
  | cons first rest =>
    rw [List.map_cons, areAlternatives, areValidAll_eq, List.all_map, single]
    simp [Function.comp_def, single]

/-- The schema of a release is valid if there are products and their references can be written. -/
theorem isValid_ofProducts (wf : ∀ d ∈ products.values, d.WellFormed []) :
    isValid (ofProducts products) = true ↔
      products.names ≠ [] ∧ ∀ name ∈ products.names, isReference (referenceTo name) = true := by
  have version : isValidMember "$schema" draft = true := by
    rw [isValidMember]
    decide
  have definitions : isValidMember "definitions" (Json.ofMap ofGroup products) = true := by
    rw [isValidMember, Json.ofMap, areValidProperties, areSchemas_eq, List.all_eq_true]
    intro m mem
    obtain ⟨e, isIn, rfl⟩ := List.mem_map.1 mem
    exact isValid_ofGroup (wf e.2 (List.mem_map_of_mem isIn))
  have title : isValidMember "title" (.text "dataset") = true := by
    rw [isValidMember]
    rfl
  change isValid (.object [("$schema", draft), ("anyOf", .array (references products)),
    ("definitions", Json.ofMap ofGroup products), ("title", .text "dataset")]) = true ↔ _
  rw [← isValidMember_references, isValid_object]
  simp only [List.all_cons, List.all_nil, version, definitions, title, Bool.and_true,
    Bool.true_and]

theorem violationsWith_ofProducts (follow : Follow) (location : List Step) (document : Json) :
    violationsWith follow location document (ofProducts products) =
      if isAnyOf follow location document (.array (references products)) then []
      else [⟨location, .noAlternative document⟩] := by
  rw [ofProducts, violationsWith_object rfl]
  show [] ++ (ofKeyword follow location document "anyOf" (.array (references products)) ++
    ([] ++ ([] ++ []))) = _
  rw [ofKeyword_anyOf, List.nil_append]
  exact List.append_nil _

/-- What a reference finds in a value that is checked against a schema. -/
def following (root : Json) (fuel : Nat) : Follow := fun reference location value =>
  match resolve? root reference with
  | some target => violations root fuel target location value
  | none => [⟨location, .unresolved reference⟩]

theorem following_eq_nil {root : Json} {fuel : Nat} {reference : String} {location : List Step}
    {value : Json} :
    following root fuel reference location value = [] ↔
      ∃ target, resolve? root reference = some target ∧
        violations root fuel target location value = [] := by
  unfold following
  cases resolve? root reference <;> simp

/-- A release accepts what is accepted where one of its references leads. -/
theorem violations_ofProducts (root : Json) (fuel : Nat) (document : Json) :
    violations root (fuel + 1) (ofProducts products) [] document = [] ↔
      ∃ name ∈ products.names, ∃ target, resolve? root (referenceTo name) = some target ∧
        violations root fuel target [] document = [] := by
  have alternative (name : String) :
      violationsWith (following root fuel) [] document
          (.object [("$ref", .text (referenceTo name))]) =
        following root fuel (referenceTo name) [] document := by
    rw [violationsWith]
    rfl
  have opened : violations root (fuel + 1) (ofProducts products) [] document =
      violationsWith (following root fuel) [] document (ofProducts products) := by
    rw [violations]
    rfl
  rw [opened, violationsWith_ofProducts, isAnyOf, isAnyOfAll_eq, references, List.any_map,
    ite_eq_left_iff]
  simp only [List.cons_ne_nil, imp_false, not_not, List.any_eq_true, Function.comp_apply,
    List.isEmpty_iff, alternative, following_eq_nil]

theorem resolve?_referenceTo {name : String} (h : Verbatim name) :
    resolve? (ofProducts products) (referenceTo name) = (products.get? name).map ofGroup := by
  have found : (products.mapValues ofGroup).toList.lookup name =
      (products.get? name).map ofGroup := products.get?_mapValues ofGroup name
  have definitions : List.lookup "definitions" [("$schema", draft),
      ("anyOf", .array (references products)), ("definitions", Json.ofMap ofGroup products),
      ("title", .text "dataset")] = some (Json.ofMap ofGroup products) := rfl
  have way : descend? (ofProducts products) ["definitions", name] =
      descend? (Json.ofMap ofGroup products) [name] := by
    change descend? (.object [("$schema", draft), ("anyOf", .array (references products)),
      ("definitions", Json.ofMap ofGroup products), ("title", .text "dataset")]) _ = _
    rw [descend?, definitions]
  rw [resolve?, steps?_referenceTo h, Option.bind_eq_bind, Option.bind_some, way, Json.ofMap,
    descend?, found]
  cases products.get? name <;> rfl

theorem size_pos (j : Json) : 0 < size j := by
  cases j <;> simp [size]

/-- However many references may be followed, a schema without any finds the same. -/
theorem violations_of_isLocal {schema : Json} (h : IsLocal schema) (follow : Follow) (root : Json)
    (fuel : Nat) (location : List Step) (value : Json) :
    violations root fuel schema location value = violationsWith follow location value schema := by
  cases fuel <;> exact (violations.eq_def ..).trans (h _ follow location value)

/-- Whether a schema inside another one finds nothing in a document. -/
def Accepts (root schema document : Json) : Prop :=
  violations root (size root * size document - 1) schema [] document = []

/-- A release accepts what is accepted where one of its references leads, if all of them can be
written. -/
theorem check?_ofProducts_iff (wf : ∀ d ∈ products.values, d.WellFormed []) (document : Json) :
    check? (ofProducts products) document = some [] ↔
      (∀ name ∈ products.names, isReference (referenceTo name) = true) ∧
        ∃ name ∈ products.names, ∃ target,
          resolve? (ofProducts products) (referenceTo name) = some target ∧
            Accepts (ofProducts products) target document := by
  -- Two documents allow for one reference in a row, which is all that there are.
  obtain ⟨fuel, enough⟩ : ∃ fuel, size (ofProducts products) * size document = fuel + 1 :=
    Nat.exists_eq_add_one.2 (Nat.mul_pos (size_pos _) (size_pos _))
  unfold check? Accepts
  rw [enough, Nat.add_sub_cancel, Option.ite_none_right_eq_some, isValid_ofProducts wf,
    Option.some.injEq, violations_ofProducts]
  constructor
  · rintro ⟨⟨-, written⟩, found⟩
    exact ⟨written, found⟩
  · rintro ⟨written, name, mem, found⟩
    exact ⟨⟨List.ne_nil_of_mem mem, written⟩, name, mem, found⟩

/-- A release accepts what is accepted where one of its references leads, and that is what one of
its products accepts if references can hold all names as they are. -/
theorem release_accepts (products : NameMap Dataset)
    (compiled : ∀ d ∈ products.values, ∃ (definition : Definition) (name : String)
      (defaults : Defaults), definition.compileNamed name defaults = .ok d) (document : Json) :
    (check? (ofProducts products) document = some [] ↔
      (∀ name ∈ products.names, isReference (referenceTo name) = true) ∧
        ∃ name ∈ products.names, ∃ target,
          resolve? (ofProducts products) (referenceTo name) = some target ∧
            Accepts (ofProducts products) target document) ∧
    ((∀ name ∈ products.names, Verbatim name) →
      (check? (ofProducts products) document = some [] ↔
        ∃ d ∈ products.values, check? (ofDataset d) document = some [])) := by
  have wf : ∀ d ∈ products.values, d.WellFormed [] := by
    intro d mem
    obtain ⟨definition, name, defaults, h⟩ := compiled d mem
    exact (Section.of_compile definition.body h).2.2
  refine ⟨check?_ofProducts_iff wf document, fun verbatim => ?_⟩
  have accepted {d : Dataset} (mem : d ∈ products.values) :
      Accepts (ofProducts products) (ofGroup d) document ↔
        check? (ofDataset d) document = some [] := by
    rw [check?_ofDataset_iff (wf d mem) fun _ _ _ => [], Accepts,
      violations_of_isLocal (isLocal_ofGroup d)]
  rw [check?_ofProducts_iff wf]
  constructor
  · rintro ⟨-, name, mem, target, resolved, accepts⟩
    rw [resolve?_referenceTo (verbatim name mem), Option.map_eq_some_iff] at resolved
    obtain ⟨d, found, rfl⟩ := resolved
    have isValue : d ∈ products.values :=
      List.mem_map_of_mem (f := Prod.snd) (NameMap.mem_of_get? found)
    exact ⟨d, isValue, (accepted isValue).1 accepts⟩
  · rintro ⟨d, mem, accepts⟩
    obtain ⟨⟨name, d⟩, isEntry, rfl⟩ := List.mem_map.1 mem
    have isName : name ∈ products.names := List.mem_map_of_mem (f := Prod.fst) isEntry
    refine ⟨fun name mem => isReference_referenceTo (verbatim name mem), name, isName, ofGroup d,
      ?_, (accepted mem).2 accepts⟩
    rw [resolve?_referenceTo (verbatim name isName), NameMap.get?_of_mem isEntry]
    rfl

/-- Two products whose names hold a tilde and a slash. -/
def twins (first second : Dataset) : NameMap Dataset :=
  .ofList [("air~1", first), ("sea/ice", second)]

theorem release_accepts_twins : ∃ first second,
    Definition.nested.compileNamed "air" .empty = .ok first ∧
      Definition.nested.compileNamed "sea" .empty = .ok second ∧
      (check? (ofProducts (twins first second)) (.object []) = some [] ↔
        ∃ d ∈ (twins first second).values, check? (ofDataset d) (.object []) = some []) := by
  refine ⟨_, _, rfl, rfl, (release_accepts _ (fun d mem => ?_) _).2 fun name mem => ?_⟩
  · rcases List.mem_pair.1 mem with rfl | rfl
    · exact ⟨.nested, "air", .empty, rfl⟩
    · exact ⟨.nested, "sea", .empty, rfl⟩
  · rcases List.mem_pair.1 mem with rfl | rfl
    all_goals
      refine ⟨isReference_iff.1 (by decide), isUnescaped_of_notMem (by decide), fun c last => ?_⟩
      cases last
      decide

end Products

end JsonSchema

end ProductSpec
