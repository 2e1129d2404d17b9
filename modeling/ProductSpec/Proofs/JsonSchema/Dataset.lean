/-
  The schema of a dataset against the plain document of a file. The schema is valid, and what it
  says of a file in which siblings have different names comes apart into what it says of each part.
-/
import ProductSpec.DataFile.Plain
import ProductSpec.Proofs.DataFile.Siblings
import ProductSpec.Proofs.Dataset.Walk
import ProductSpec.Proofs.JsonSchema.Document
import ProductSpec.Proofs.JsonSchema.Keywords

namespace ProductSpec

namespace FileGroup

/-- The members of the plain document of a group. -/
def plainParts (file : FileGroup) : List (String × Json) :=
  [("attributes", plainAttributes file.attributes),
    ("dimensions", Json.ofMembers (file.dimensions.map fun d => (d.name, Json.ofNat d.size.toNat))),
    ("groups", Json.ofMembers (file.groups.map fun g => (g.name, g.toPlain))),
    ("variables", Json.ofMembers (file.vars.map fun v => (v.name, v.toPlain)))]

theorem plainGroups_eq (groups : List FileGroup) :
    plainGroups groups = groups.map fun g => (g.name, g.toPlain) := by
  induction groups with
  | nil => rfl
  | cons g rest ih => rw [plainGroups, ih, List.map_cons]

theorem toPlain_eq (file : FileGroup) : file.toPlain = .object file.plainParts := by
  obtain ⟨name, attributes, dimensions, vars, groups⟩ := file
  rw [toPlain, plainGroups_eq]
  rfl

end FileGroup

namespace JsonSchema

variable {follow : Follow} {location : List Step}

/-- The schemas of the parts of a group. -/
def partSchemas (g : Group) : List (String × Json) :=
  [("attributes", ofAttributes g.attributes),
    ("dimensions",
      keyed (g.dimensions.map fun d => (d.name, ofDimension d)) (requiredDimensions g.dimensions)),
    ("groups", keyed (g.groups.map fun h => (h.name, ofGroup h)) (requiredGroups g.groups)),
    ("variables", keyed (g.vars.map fun v => (v.name, ofVariable v)) (requiredVariables g.vars))]

theorem parts_eq (g : Group) : parts g = .object (partSchemas g) := by
  obtain ⟨name, info, attributes, dimensions, vars, groups⟩ := g
  rw [parts, ofGroups_eq]
  rfl

theorem violations_ofDimension (d : Dimension) (n : Nat) :
    violationsWith follow location (Json.ofNat n) (ofDimension d) = [] := by
  have notBelow : isBelow (Json.ofNat n) (.int 0) = false :=
    decide_eq_false (Int.not_lt.2 (Int.natCast_nonneg n))
  have minimum : ofKeyword follow location (Json.ofNat n) "minimum" (.int 0) = [] := by
    show (if isBelow (Json.ofNat n) (.int 0) then [Fault.below (Json.ofNat n) (.int 0)]
      else []).map (fun f => (⟨location, f⟩ : Violation)) = []
    rw [notBelow]
    rfl
  have type : ofKeyword follow location (Json.ofNat n) "type" (.text "integer") = [] := rfl
  rw [ofDimension, violationsWith_described _ rfl, List.flatMap_cons, List.flatMap_cons, minimum,
    type]
  rfl

/-- What is wrong with a block of attributes. -/
def blockViolations (follow : Follow) (location : List Step)
    (constraints : List AttributeConstraint) (actual : NameMap AttributeValue) : List Violation :=
  constraints.flatMap fun c => partViolations follow location c.name c.isRequired
    ((actual.get? c.name).map AttributeValue.toPlain) c.schema

theorem violations_ofAttributes (follow : Follow) (location : List Step)
    {constraints : List AttributeConstraint}
    (distinct : (constraints.map AttributeConstraint.name).Nodup)
    (actual : NameMap AttributeValue) :
    (violationsWith follow location (plainAttributes actual) (ofAttributes constraints)).Perm
      (blockViolations follow location constraints actual) := by
  have stored : ∀ name : String, (actual.mapValues AttributeValue.toPlain).entries.lookup name =
      (actual.get? name).map AttributeValue.toPlain := actual.get?_mapValues AttributeValue.toPlain
  have keyed := violations_keyed follow location distinct AttributeConstraint.isRequired
    AttributeConstraint.schema (actual.mapValues AttributeValue.toPlain).entries
  simp only [stored] at keyed
  exact keyed

/-- The data type has to be the one that is listed. -/
def typeViolations (location : List Step) (expected actual : BaseType) : List Violation :=
  if actual = expected then []
  else [⟨location ++ [.name "datatype"],
    .notListed (.text actual.token) [.text expected.token]⟩]

theorem violations_ofVariable {v : Variable}
    (distinct : (v.attributes.map AttributeConstraint.name).Nodup) (actual : FileVariable) :
    (violationsWith follow location actual.toPlain (ofVariable v)).Perm
      (blockViolations follow (location ++ [.name "attributes"]) v.attributes
        actual.attributes ++ typeViolations location v.dataType actual.dataType) := by
  have attributes := violations_ofAttributes follow (location ++ [.name "attributes"]) distinct
    actual.attributes
  have datatype : violationsWith follow (location ++ [.name "datatype"])
      (.text actual.dataType.token) (.object [("enum", texts [v.dataType.token])]) =
        typeViolations location v.dataType actual.dataType := by
    rw [violationsWith_object rfl]
    show ((if [Json.text v.dataType.token].any (same (.text actual.dataType.token)) then []
      else [Fault.notListed (.text actual.dataType.token) [.text v.dataType.token]]).map
        fun f => (⟨location ++ [.name "datatype"], f⟩ : Violation)) ++ [] = _
    rw [List.any_cons, same, List.any_nil, Bool.or_false, List.append_nil]
    unfold typeViolations
    by_cases same : actual.dataType = v.dataType
    · rw [same, beq_self_eq_true, if_pos rfl, if_pos rfl]
      rfl
    · have unlike : actual.dataType.token ≠ v.dataType.token := fun tokens => same
        (Option.some.inj (by rw [← BaseType.ofToken?_token, tokens, BaseType.ofToken?_token]))
      rw [beq_false_of_ne unlike, if_neg Bool.false_ne_true, if_neg same]
      rfl
  have dimensions : violationsWith follow (location ++ [.name "dimensions"])
      (.array (actual.dimensions.map .text))
      (.object [("items", .object [("type", .text "string")]), ("type", .text "array")]) = [] := by
    rw [violationsWith_object rfl]
    show itemViolations follow _ _ _ ++ ([] ++ []) = []
    rw [itemViolations, List.append_nil, List.append_nil, List.flatMap_eq_nil_iff]
    rintro ⟨item, i⟩ mem
    obtain ⟨name, -, rfl⟩ := List.mem_map.1 (List.fst_mem_of_mem_zipIdx mem)
    exact violationsWith_object rfl
  rw [ofVariable, violationsWith_described _ rfl, FileVariable.toPlain, ofKeyword_object,
    memberViolations_eq]
  show ((violationsWith follow _ _ _ ++ (violationsWith follow _ _ _ ++
    (violationsWith follow _ _ _ ++ []))) ++ []).Perm _
  rw [datatype, dimensions, List.append_nil, List.append_nil, List.append_nil]
  exact attributes.append_right _

/-- Parts of a file that are keyed by their names, against the schemas for parts of the dataset. -/
theorem violations_keyed_ofMembers {α β : Type} (follow : Follow) (location : List Step)
    {items : List α} {name : α → String} (distinct : (items.map name).Nodup)
    (isRequired : α → Bool) (schema : α → Json)
    {stored : List β} {nameOf : β → String} (distinct' : (stored.map nameOf).Nodup)
    (plain : β → Json) :
    (violationsWith follow location (Json.ofMembers (stored.map fun y => (nameOf y, plain y)))
        (keyed (items.map fun x => (name x, schema x)) ((items.filter isRequired).map name))).Perm
      (items.flatMap fun x => partViolations follow location (name x) (isRequired x)
        ((stored.find? fun y => nameOf y == name x).map plain) (schema x)) := by
  have found : ∀ label : String, List.lookup label
      (NameMap.ofList (stored.map fun y => (nameOf y, plain y))).toList =
        (stored.find? fun y => nameOf y == label).map plain := Json.member?_ofMembers distinct' plain
  have keyed := violations_keyed follow location distinct isRequired schema
    (NameMap.ofList (stored.map fun y => (nameOf y, plain y))).toList
  simp only [found] at keyed
  exact keyed

/-- What is wrong with a group, part by part. -/
def groupViolations (follow : Follow) (location : List Step) (g : Group) (file : FileGroup) :
    List Violation :=
  blockViolations follow (location ++ [.name "attributes"]) g.attributes file.attributes ++
    (g.dimensions.flatMap fun d => partViolations follow (location ++ [.name "dimensions"])
      d.name d.info.required ((file.dimensionNamed? d.name).map fun d => .ofNat d.size.toNat)
      (ofDimension d)) ++
    (g.groups.flatMap fun h => partViolations follow (location ++ [.name "groups"])
      h.name h.info.required ((file.groupNamed? h.name).map FileGroup.toPlain) (ofGroup h)) ++
    g.vars.flatMap fun v => partViolations follow (location ++ [.name "variables"])
      v.name v.info.required ((file.variableNamed? v.name).map FileVariable.toPlain) (ofVariable v)

theorem violations_parts {outer : List String} {g : Group} (wf : g.WellFormed outer)
    {file : FileGroup} (distinct : file.Distinct) :
    (memberViolations follow location file.plainParts (partSchemas g)).Perm
      (groupViolations follow location g file) := by
  cases distinct with
  | intro ofDimensions ofVars ofGroups inner =>
    have attributes := violations_ofAttributes follow (location ++ [.name "attributes"])
      wf.attributes.names.distinct file.attributes
    have dimensions := violations_keyed_ofMembers follow (location ++ [.name "dimensions"])
      wf.dimensions.distinct (fun d => d.info.required) ofDimension ofDimensions
      fun d => Json.ofNat d.size.toNat
    have groups := violations_keyed_ofMembers follow (location ++ [.name "groups"])
      wf.groups.distinct (fun h => h.info.required) ofGroup ofGroups FileGroup.toPlain
    have vars := violations_keyed_ofMembers follow (location ++ [.name "variables"])
      wf.vars.distinct (fun v => v.info.required) ofVariable ofVars FileVariable.toPlain
    rw [memberViolations_eq]
    show (violationsWith follow _ _ _ ++ (violationsWith follow _ _ _ ++ (violationsWith follow _ _ _ ++
      (violationsWith follow _ _ _ ++ [])))).Perm _
    rw [List.append_nil, groupViolations, List.append_assoc, List.append_assoc]
    exact attributes.append (dimensions.append (groups.append vars))

/-- Every group has all kinds of parts in its document, so none of them is missing. -/
theorem requiredFaults_plainParts (g : Group) (file : FileGroup) :
    requiredFaults (.object file.plainParts) (requiredParts g) = [] := by
  have kinds : ∀ kind ∈ requiredParts g,
      kind ∈ ["attributes", "dimensions", "variables", "groups"] := by
    intro kind mem
    simp only [requiredParts, List.mem_append, List.mem_ite_nil_left, List.mem_singleton] at mem
    simp only [List.mem_cons, List.not_mem_nil, or_false]
    tauto
  unfold requiredFaults
  dsimp only
  rw [List.map_eq_nil_iff, List.filter_eq_nil_iff]
  intro kind mem
  have named := kinds kind mem
  simp only [List.mem_cons, List.not_mem_nil, or_false] at named
  rcases named with rfl | rfl | rfl | rfl <;> exact Bool.false_ne_true

theorem violations_ofGroup {outer : List String} {g : Group} (wf : g.WellFormed outer)
    {file : FileGroup} (distinct : file.Distinct) :
    (violationsWith follow location file.toPlain (ofGroup g)).Perm
      (groupViolations follow location g file) := by
  rw [ofGroup, violationsWith_described _ rfl, file.toPlain_eq, parts_eq, ofKeyword_object,
    requiredFaults_plainParts, List.map_nil, List.append_nil]
  exact violations_parts wf distinct

theorem violations_ofDataset {d : Dataset} (wf : d.WellFormed []) {file : DataFile}
    (distinct : file.Distinct) :
    (violationsWith follow location file.toPlain (ofDataset d)).Perm
      (groupViolations follow location d file) := by
  have keywords : violationsWith follow location file.toPlain (ofDataset d) =
      memberViolations follow location file.plainParts (partSchemas d) := by
    -- The version, the description and the title say nothing about a value.
    have rest : ([("properties", parts d), ("required", texts (requiredParts d)),
        ("title", .text d.productName), ("type", .text "object")].flatMap fun m =>
          ofKeyword follow location (.object file.plainParts) m.1 m.2) =
        memberViolations follow location file.plainParts (partSchemas d) := by
      show propertyViolations follow location (.object file.plainParts) (parts d) ++
        (((requiredFaults (.object file.plainParts)
          ((texts? (texts (requiredParts d))).getD [])).map _) ++ []) = _
      rw [texts?_texts, Option.getD_some, requiredFaults_plainParts, parts_eq, propertyViolations]
      exact List.append_nil _
    rw [← rest, file.toPlain_eq, ofDataset]
    unfold description
    cases d.info.description <;> exact violationsWith_object rfl
  rw [keywords]
  exact violations_parts wf distinct

end JsonSchema

end ProductSpec
