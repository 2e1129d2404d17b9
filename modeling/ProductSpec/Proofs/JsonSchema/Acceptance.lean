/-
  What the schema of a dataset finds in a file in which validation finds nothing. Constraints and
  schemas mostly agree on the forms of a stored value, but two are not provided for by the schema of
  a literal: a single value that is stored as a list, and a number that is not finite. Each of them
  is found, and nothing else is.
-/
import ProductSpec.Proofs.JsonSchema.Presence
import ProductSpec.Proofs.Validation.Silent

namespace ProductSpec

open JsonSchema

theorem JsonSchema.typeFaults_eq_nil_iff {value : Json} {types : List String} :
    typeFaults value types = [] ↔ ∃ t ∈ types, hasType value t = true := by
  unfold typeFaults
  split
  · next some => exact ⟨fun _ => List.any_eq_true.1 some, fun _ => rfl⟩
  · next none => exact ⟨nofun, fun found => absurd (List.any_eq_true.2 found) none⟩

namespace Scalar

/-- A single value has one of the types for its kind. -/
theorem typeFaults_toPlain (s : Scalar) :
    typeFaults s.toPlain (AttributeConstraint.scalarTypes s.baseType) = [] := by
  refine typeFaults_eq_nil_iff.2 ?_
  have ofFloat : ∀ x : Number.Double, ∃ t ∈ ["number", "null"],
      hasType (Json.ofDouble x) t = true := by
    intro x
    unfold Json.ofDouble
    split
    · exact ⟨"number", List.mem_cons_self, rfl⟩
    · exact ⟨"null", List.mem_cons_of_mem _ List.mem_cons_self, rfl⟩
  cases s with
  | str t => exact ⟨"string", List.mem_cons_self, rfl⟩
  | char t => exact ⟨"string", List.mem_cons_self, rfl⟩
  | integer t n fits =>
    cases t with
    | int8 | int16 | int32 | int64 | byte => exact ⟨"integer", List.mem_cons_self, rfl⟩
    | str | char | float32 | float64 => cases fits.1
  | float32 x => exact ofFloat x.widen
  | float64 x => exact ofFloat x

end Scalar

namespace Literal

def isList : Literal → Bool
  | list _ => true
  | _ => false

/-- The forms of stored values that the schema of a literal does not provide for: a list for a single
value, and a float that is not finite, which the plain document has as null. -/
inductive StoredOtherwise (l : Literal) : AttributeValue → Prop
  | array {t : BaseType} {elements : List Scalar} :
      l.isList = false → StoredOtherwise l (.array t elements)
  | null {s : Scalar} : s.toPlain = .null → StoredOtherwise l (.scalar s)

/-- A single value that matches a literal has the type of the literal, unless it is null. -/
theorem hasType_of_matchesScalar {l : Literal} {s : Scalar} (same : l.matchesScalar s = true) :
    s.toPlain = .null ∨ ∃ t ∈ l.schemaTypes, hasType s.toPlain t = true := by
  have ofFloat : ∀ x : Number.Double, Json.ofDouble x = .null ∨ hasType (Json.ofDouble x) "number" := by
    intro x
    unfold Json.ofDouble
    split
    · exact .inr rfl
    · exact .inl rfl
  have number : ∀ types, types = ["number"] → (s.toPlain = .null ∨ hasType s.toPlain "number") →
      s.toPlain = .null ∨ ∃ t ∈ types, hasType s.toPlain t = true := by
    rintro types rfl (isNull | isNumber)
    · exact .inl isNull
    · exact .inr ⟨"number", List.mem_cons_self, isNumber⟩
  cases l with
  | text t =>
    refine .inr ⟨"string", by rw [schemaTypes]; exact List.mem_cons_self, ?_⟩
    cases s with
    | str | char => rfl
    | integer | float32 | float64 => cases same
  | int n =>
    refine number _ (by rw [schemaTypes]) ?_
    cases s with
    | str | char => cases same
    | integer => exact .inr rfl
    | float32 x => exact ofFloat x.widen
    | float64 x => exact ofFloat x
  | float y =>
    refine number _ (by rw [schemaTypes]) ?_
    cases s with
    | str | char | integer => cases same
    | float32 x => exact ofFloat x.widen
    | float64 x => exact ofFloat x
  | list items => cases same

/-- A value that matches a literal violates its schema if and only if it is stored in a form that
the schema does not provide for. -/
theorem typeFaults_of_matches {l : Literal} (flat : l.IsFlat) {value : AttributeValue}
    (same : l.matches value = true) :
    typeFaults value.toPlain l.schemaTypes = [] ↔ ¬ l.StoredOtherwise value := by
  rw [typeFaults_eq_nil_iff]
  cases value with
  | scalar s =>
    constructor
    · rintro ⟨t, mem, typed⟩ (_ | isNull)
      rw [AttributeValue.toPlain, isNull, hasType, beq_iff_eq] at typed
      have known := mem_schemaTypes flat mem
      rw [typed] at known
      exact absurd known (by decide)
    · intro foreseen
      have notNull : s.toPlain ≠ .null := fun isNull => foreseen (.null isNull)
      cases l with
      | text t => exact (hasType_of_matchesScalar (l := .text t) same).resolve_left notNull
      | int n => exact (hasType_of_matchesScalar (l := .int n) same).resolve_left notNull
      | float x => exact (hasType_of_matchesScalar (l := .float x) same).resolve_left notNull
      | list items =>
        cases items with
        | nil => cases same
        | cons item rest =>
          cases rest with
          | cons => cases same
          | nil =>
            obtain ⟨t, mem, typed⟩ := (hasType_of_matchesScalar same).resolve_left notNull
            exact ⟨t, mem_schemaTypes_list.2 (.inr ⟨item, List.mem_cons_self, mem⟩), typed⟩
  | array t elements =>
    constructor
    · rintro ⟨type, mem, typed⟩ (isSingle | _)
      have isArray : type = "array" := beq_iff_eq.1 typed
      cases l with
      | list items => cases isSingle
      | text | int | float =>
        rw [schemaTypes, List.mem_singleton] at mem
        rw [mem] at isArray
        exact absurd isArray (by decide)
    · intro foreseen
      cases l with
      | text | int | float => exact absurd (.array rfl) foreseen
      | list items =>
        exact ⟨"array", mem_schemaTypes_list.2 (.inl rfl), rfl⟩

end Literal

namespace AttributeConstraint

variable {follow : Follow} {location : List Step} {c : AttributeConstraint}

/-- A value that conforms to a placeholder has no violation of its schema. -/
theorem violations_of_conformsTo {p : Placeholder} (kind : c.kind = .placeholder p)
    {value : AttributeValue} (conforms : value.conformsTo p = true) :
    violationsWith follow location value.toPlain c.schema = [] := by
  have one : ∀ (place : List Step) (s : Scalar), s.baseType = p.baseType →
      violationsWith follow place s.toPlain (.object [("type", p.baseType.schemaType)]) = [] := by
    intro place s same
    rw [violations_schemaType, ← same, s.typeFaults_toPlain]
    rfl
  rw [schema_placeholder kind]
  cases value with
  | scalar s =>
    have same : s.baseType = p.baseType := beq_iff_eq.1 conforms
    split
    · rw [violationsWith_object rfl, List.flatMap_cons, List.flatMap_nil, List.append_nil,
        ofKeyword_anyOf, isAnyOf, isAnyOfAll, AttributeValue.toPlain, one location s same]
      rfl
    · exact one location s same
  | array t elements =>
    unfold AttributeValue.conformsTo at conforms
    rw [Bool.and_eq_true, Bool.and_eq_true, List.all_eq_true] at conforms
    obtain ⟨⟨isArray, -⟩, same⟩ := conforms
    have many : violationsWith follow location (.array (elements.map Scalar.toPlain))
        (.object [("items", .object [("type", p.baseType.schemaType)]),
          ("type", .text "array")]) = [] := by
      rw [violationsWith_object rfl]
      show itemViolations follow location _ _ ++ ([] ++ []) = []
      rw [itemViolations, List.append_nil, List.append_nil, List.flatMap_eq_nil_iff]
      rintro ⟨item, i⟩ mem
      obtain ⟨s, isIn, rfl⟩ := List.mem_map.1 (List.fst_mem_of_mem_zipIdx mem)
      exact one _ s (beq_iff_eq.1 (same s isIn))
    rw [if_pos isArray, violationsWith_object rfl, List.flatMap_cons, List.flatMap_nil,
      List.append_nil, ofKeyword_anyOf, isAnyOf, isAnyOfAll, isAnyOfAll, AttributeValue.toPlain,
      many, List.isEmpty_nil, Bool.true_or, Bool.or_true]
    rfl

/-- A value in a form that the schema of the constraint does not provide for. -/
def StoredOtherwise (c : AttributeConstraint) (value : AttributeValue) : Prop :=
  ∃ l, c.kind = .literal l ∧ l.StoredOtherwise value

/-- The types that the schema of the constraint names for a single value. -/
def types (c : AttributeConstraint) : List String :=
  match c.kind with
  | .literal l => l.schemaTypes
  | .placeholder p => scalarTypes p.baseType

/-- What the schema finds in a value that meets the constraint. -/
theorem mem_violations_of_meets (flat : ∀ l, c.kind = .literal l → l.IsFlat)
    {value : AttributeValue} (met : c.meets value = true) {x : JsonSchema.Violation} :
    x ∈ violationsWith follow location value.toPlain c.schema ↔
      c.StoredOtherwise value ∧ x = ⟨location, .wrongType value.toPlain c.types⟩ := by
  unfold meets at met
  cases kind : c.kind with
  | placeholder p =>
    rw [kind] at met
    rw [violations_of_conformsTo kind met]
    refine ⟨nofun, ?_⟩
    rintro ⟨⟨l, isLiteral, -⟩, -⟩
    rw [kind] at isLiteral
    cases isLiteral
  | literal l =>
    rw [kind] at met
    have only : c.StoredOtherwise value ↔ l.StoredOtherwise value := by
      constructor
      · rintro ⟨l', isLiteral, otherwise⟩
        rw [kind] at isLiteral
        cases isLiteral
        exact otherwise
      · exact fun otherwise => ⟨l, kind, otherwise⟩
    have named : c.types = l.schemaTypes := by
      unfold types
      rw [kind]
    have faults := Literal.typeFaults_of_matches (flat l kind) met
    rw [violations_schema_literal kind, only, named]
    unfold typeFaults at faults ⊢
    split
    · next typed =>
      rw [if_pos typed] at faults
      exact ⟨nofun, fun ⟨otherwise, _⟩ => absurd otherwise (faults.1 rfl)⟩
    · next untyped =>
      rw [if_neg untyped] at faults
      have otherwise : l.StoredOtherwise value := by
        by_contra foreseen
        exact absurd (faults.2 foreseen) (List.cons_ne_nil _ _)
      exact List.mem_singleton.trans (and_iff_right otherwise).symm

end AttributeConstraint

/-- The violation by an attribute that is stored in a form that its schema does not provide for. -/
def AttributeConstraint.unforeseen (c : AttributeConstraint) (path : NodePath)
    (value : AttributeValue) : JsonSchema.Violation :=
  ⟨(path.child "attributes" c.name).place, .wrongType value.toPlain c.types⟩

/-- The violations by the attributes of a file that are stored in a form that their schemas do not
provide for: those of a group, those of its variables, and those inside its groups. -/
inductive Group.Unforeseen : NodePath → Group → FileGroup → JsonSchema.Violation → Prop
  | attribute {path : NodePath} {g : Group} {file : FileGroup} {c : AttributeConstraint}
      {value : AttributeValue} :
      c ∈ g.attributes → file.attributes.get? c.name = some value → c.StoredOtherwise value →
      Unforeseen path g file (c.unforeseen path value)
  | ofVariable {path : NodePath} {g : Group} {file : FileGroup} {v : Variable}
      {stored : FileVariable} {c : AttributeConstraint} {value : AttributeValue} :
      v ∈ g.vars → file.variableNamed? v.name = some stored → c ∈ v.attributes →
      stored.attributes.get? c.name = some value → c.StoredOtherwise value →
      Unforeseen path g file (c.unforeseen (path.child "variables" v.name) value)
  | inside {path : NodePath} {g h : Group} {file inner : FileGroup} {x : JsonSchema.Violation} :
      h ∈ g.groups → file.groupNamed? h.name = some inner →
      Unforeseen (path.child "groups" h.name) h inner x → Unforeseen path g file x

section Parts

variable {follow : Follow} {path : NodePath} {x : JsonSchema.Violation}

/-- What is wrong with an attribute that fits. -/
theorem AttributeConstraint.mem_partViolations (nonempty : path ≠ []) {c : AttributeConstraint}
    (flat : ∀ l, c.kind = .literal l → l.IsFlat) {value? : Option AttributeValue}
    (fit : c.Accepts value?) :
    x ∈ partViolations follow (path.place ++ [.name "attributes"]) c.name c.isRequired
        (value?.map AttributeValue.toPlain) c.schema ↔
      ∃ value, value? = some value ∧ c.StoredOtherwise value ∧ x = c.unforeseen path value := by
  cases value? with
  | none =>
    have optional : c.isRequired = false := fit
    simp [partViolations, optional]
  | some value =>
    have here : c.unforeseen path value = ⟨path.place ++ [.name "attributes"] ++ [.name c.name],
        .wrongType value.toPlain c.types⟩ := by
      rw [unforeseen, NodePath.place_child nonempty]
    simp only [Option.some_inj, exists_eq_left', here]
    exact mem_violations_of_meets flat fit

/-- What is wrong with a block of attributes that fit. -/
theorem mem_blockViolations (nonempty : path ≠ []) {constraints : List AttributeConstraint}
    (block : AttributeBlock constraints) {actual : NameMap AttributeValue}
    (fits : ∀ c ∈ constraints, c.Accepts (actual.get? c.name)) :
    x ∈ blockViolations follow (path.place ++ [.name "attributes"]) constraints actual ↔
      ∃ c ∈ constraints, ∃ value, actual.get? c.name = some value ∧ c.StoredOtherwise value ∧
        x = c.unforeseen path value := by
  unfold blockViolations
  rw [List.mem_flatMap]
  refine exists_congr fun c => and_congr_right fun mem => ?_
  exact c.mem_partViolations nonempty (block.flat c mem) (fits c mem)

/-- A dimension that fits has no violation. -/
theorem Dimension.partViolations_eq_nil {d : Dimension} {actual? : Option FileDimension}
    (fit : d.Accepts actual?) (location : List Step) :
    partViolations follow location d.name d.info.required
      (actual?.map fun d => .ofNat d.size.toNat) (ofDimension d) = [] := by
  cases actual? with
  | none =>
    have optional : d.info.required = false := fit
    simp [partViolations, optional]
  | some actual => exact violations_ofDimension d actual.size.toNat

/-- What is wrong with a variable in which the checks find nothing. -/
theorem Variable.mem_partViolations (nonempty : path ≠ []) {v : Variable}
    (block : AttributeBlock v.attributes) {o : ValidationOptions} {scope : Scope} {file : FileGroup}
    (silent : Silent (v.check o scope path file)) :
    x ∈ partViolations follow (path.place ++ [.name "variables"]) v.name v.info.required
        ((file.variableNamed? v.name).map FileVariable.toPlain) (ofVariable v) ↔
      ∃ stored, file.variableNamed? v.name = some stored ∧ ∃ c ∈ v.attributes, ∃ value,
        stored.attributes.get? c.name = some value ∧ c.StoredOtherwise value ∧
          x = c.unforeseen (path.child "variables" v.name) value := by
  unfold check at silent
  cases found : file.variableNamed? v.name with
  | none =>
    rw [found] at silent
    have optional : v.info.required = false := silent_absent.1 silent
    simp [partViolations, optional]
  | some stored =>
    rw [found] at silent
    obtain ⟨self, attributes⟩ := silent_append.1 silent
    have sameType : stored.dataType = v.dataType := (silent_checkSelf.1 self).dataType
    have typed : typeViolations (path.child "variables" v.name).place v.dataType
        stored.dataType = [] := if_pos sameType
    show x ∈ violationsWith follow (path.place ++ [.name "variables"] ++ [.name v.name])
      stored.toPlain (ofVariable v) ↔ _
    rw [← NodePath.place_child nonempty, (violations_ofVariable block.names.distinct stored).mem_iff,
      typed, List.append_nil, mem_blockViolations (NodePath.child_ne_nil path "variables" v.name)
        block (silent_checkAttributes.1 attributes).1]
    simp only [Option.some_inj, exists_eq_left']

namespace Group

/-- What is wrong with a group inside another one, if it is known what is wrong with any file in
which its own checks find nothing. -/
theorem mem_partViolations (nonempty : path ≠ []) {outer : List String} {h : Group}
    (wf : h.WellFormed outer) {o : ValidationOptions} {scope : Scope} {file : FileGroup}
    (distinct : file.Distinct) (silent : Silent (h.checkInner o scope path file))
    (known : ∀ inner : FileGroup, inner.Distinct →
      Silent (h.check o scope (path.child "groups" h.name) inner) →
      (x ∈ groupViolations follow (path.child "groups" h.name).place h inner ↔
        Unforeseen (path.child "groups" h.name) h inner x)) :
    x ∈ partViolations follow (path.place ++ [.name "groups"]) h.name h.info.required
        ((file.groupNamed? h.name).map FileGroup.toPlain) (ofGroup h) ↔
      ∃ inner, file.groupNamed? h.name = some inner ∧
        Unforeseen (path.child "groups" h.name) h inner x := by
  unfold checkInner at silent
  cases found : file.groupNamed? h.name with
  | none =>
    rw [found] at silent
    have optional : h.info.required = false := silent_absent.1 silent
    simp [partViolations, optional]
  | some inner =>
    rw [found] at silent
    have inside : Silent (h.check o scope (path.child "groups" h.name) inner) :=
      fun d mem => silent d (List.mem_cons_of_mem _ mem)
    have distinctInner := distinct.inner (of_find?_name found).1
    show x ∈ violationsWith follow (path.place ++ [.name "groups"] ++ [.name h.name])
      inner.toPlain (ofGroup h) ↔ _
    rw [← NodePath.place_child nonempty, (violations_ofGroup wf distinctInner).mem_iff,
      known inner distinctInner inside]
    simp only [Option.some_inj, exists_eq_left']

/-- What is wrong with a group in which the checks find nothing. -/
theorem mem_groupViolations {outer : List String} {g : Group} (wf : g.WellFormed outer)
    (nonempty : path ≠ []) {o : ValidationOptions} {scope : Scope} {file : FileGroup}
    (distinct : file.Distinct) (silent : Silent (g.check o scope path file)) :
    x ∈ groupViolations follow path.place g file ↔ Unforeseen path g file x := by
  induction g using induction generalizing outer path scope file x with
  | step g ih =>
    obtain ⟨attributes, dimensions, vars, groups, -⟩ := silent_check.1 silent
    have ofAttributes : x ∈ blockViolations follow (path.place ++ [.name "attributes"]) g.attributes
        file.attributes ↔ _ :=
      mem_blockViolations nonempty wf.attributes (silent_checkAttributes.1 attributes).1
    have ofDimensions : (g.dimensions.flatMap fun d =>
        partViolations follow (path.place ++ [.name "dimensions"]) d.name d.info.required
          ((file.dimensionNamed? d.name).map fun d => .ofNat d.size.toNat) (ofDimension d)) = [] :=
      List.flatMap_eq_nil_iff.2 fun d mem => Dimension.partViolations_eq_nil (dimensions d mem) _
    have ofGroups (h : Group) (mem : h ∈ g.groups) :
        x ∈ partViolations follow (path.place ++ [.name "groups"]) h.name h.info.required
          ((file.groupNamed? h.name).map FileGroup.toPlain) (ofGroup h) ↔ _ :=
      mem_partViolations nonempty (wf.inner mem) distinct (groups h mem) fun _ =>
        ih h mem (wf.inner mem) (NodePath.child_ne_nil path "groups" h.name)
    unfold groupViolations
    rw [ofDimensions, List.append_nil, List.mem_append, List.mem_append, ofAttributes,
      List.mem_flatMap, List.mem_flatMap]
    constructor
    · rintro ((⟨c, mem, value, stored, otherwise, rfl⟩ | ⟨h, mem, isIn⟩) | ⟨v, mem, isIn⟩)
      · exact .attribute mem stored otherwise
      · obtain ⟨inner, found, inside⟩ := (ofGroups h mem).1 isIn
        exact .inside mem found inside
      · obtain ⟨stored, found, c, isConstraint, value, isStored, otherwise, rfl⟩ :=
          (Variable.mem_partViolations nonempty (wf.blocks mem) (vars v mem)).1 isIn
        exact .ofVariable mem found isConstraint isStored otherwise
    · rintro (⟨mem, stored, otherwise⟩ | ⟨mem, found, isConstraint, isStored, otherwise⟩ |
        ⟨mem, found, inside⟩)
      · exact .inl (.inl ⟨_, mem, _, stored, otherwise, rfl⟩)
      · exact .inr ⟨_, mem, (Variable.mem_partViolations nonempty (wf.blocks mem)
          (vars _ mem)).2 ⟨_, found, _, isConstraint, _, isStored, otherwise, rfl⟩⟩
      · exact .inl (.inr ⟨_, mem, (ofGroups _ mem).2 ⟨_, found, inside⟩⟩)

end Group

end Parts

namespace Definition

/-- A file in which siblings of one kind have different names, and in which validation finds nothing,
violates the schema of the dataset by the attributes that are stored in a form that the schema of
a literal does not provide for, and by nothing else. -/
theorem schema_accepts_valid (d : Definition) (name : String) (defaults : Defaults)
    {dataset : Dataset} (compiled : d.compileNamed name defaults = .ok dataset) {file : DataFile}
    (distinct : file.Distinct) (o : ValidationOptions)
    (valid : (dataset.validate o file).diagnostics = []) :
    ∃ violations, check? (ofDataset dataset) file.toPlain = some violations ∧
      ∀ x, x ∈ violations ↔ dataset.Unforeseen NodePath.root file x := by
  have wf : dataset.WellFormed [] := (Section.of_compile d.body compiled).2.2
  obtain ⟨follow, checked⟩ := check?_ofDataset wf file.toPlain
  refine ⟨_, checked, fun x => ?_⟩
  rw [(violations_ofDataset wf distinct).mem_iff]
  exact Group.mem_groupViolations wf (List.cons_ne_nil "root" []) distinct
    (Group.silent_of_validate valid)

/-- A title and no other part. -/
def titled : Definition where
  shortName := none
  filePattern := none
  description := none
  canonicalName := none
  body := ⟨⟨[(.text "title", .text "Demo")], by decide⟩, [], [], []⟩

/-- A file with the title as a list of one text. -/
def listed : DataFile :=
  ⟨"listed", NameMap.empty.insert "title" (.array .str [.str "Demo"]), [], [], []⟩

theorem distinct_listed : listed.Distinct := .intro .nil .nil .nil nofun

theorem schema_accepts_valid_listed : ∃ dataset violations,
    titled.compileNamed "demo" .empty = .ok dataset ∧ listed.Distinct ∧
      (dataset.validate .standard listed).diagnostics = [] ∧
      check? (ofDataset dataset) listed.toPlain = some violations ∧
      ⟨[.name "attributes", .name "title"], .wrongType (.array [.text "Demo"]) ["string"]⟩ ∈
        violations :=
  have ⟨violations, checked, exact⟩ := schema_accepts_valid titled "demo" .empty rfl
    distinct_listed .standard rfl
  have stored : AttributeConstraint.StoredOtherwise ⟨"title", .literal (.text "Demo")⟩
      (.array .str [.str "Demo"]) := ⟨_, rfl, .array rfl⟩
  ⟨_, violations, rfl, distinct_listed, rfl, checked,
    (exact _).2 (.attribute List.mem_cons_self rfl stored)⟩

end Definition

end ProductSpec
