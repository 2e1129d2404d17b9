/-
  Datasets read back out of documents. A dataset whose float literals are finite is read back as
  it is, with its floats as they are read; so a written dataset is read exactly if its groups are
  not nested too deep and each of its floats is read as itself.
-/
import ProductSpec.Dataset.Codec
import ProductSpec.Proofs.Attribute.RoundTrip
import ProductSpec.Proofs.Dataset.Walk
import ProductSpec.Store.Manifest

namespace ProductSpec

open Number Json

namespace NodeInfo

theorem exact_toJson (i : NodeInfo) : i.toJson.Exact := by
  have texts : ∀ s : Option String, ∀ v ∈ s.map Json.text, v.Exact := by
    rintro (_ | s) v mem
    · cases mem
    · cases mem
      exact .text s
  refine Exact.object_iff.2 fun m mem => ?_
  simp only [List.mem_append, List.mem_singleton] at mem
  rcases mem with (((mem | rfl) | mem) | mem) | mem
  · exact Exact.optional (texts _) m mem
  · exact .bool _
  · exact Exact.optional (texts _) m mem
  · exact Exact.optional (texts _) m mem
  · exact Exact.optional (texts _) m mem

theorem decode_toJson (i : NodeInfo) : decode i.toJson = .ok i := by
  have sub := ((((map_fst_optional_sublist "description" (i.description.map .text)).append
    (.refl ["required"])).append
      (map_fst_optional_sublist "short_name" (i.shortName.map .text))).append
        (map_fst_optional_sublist "file_pattern" (i.filePattern.map .text))).append
          (map_fst_optional_sublist "canonical_name" (i.canonicalName.map .text))
  refine bind_eq_ok.2 ⟨_, record_object (by simpa using sub) (by decide), ?_⟩
  refine bind_eq_ok.2 ⟨i.description, optional_text (by
    simp [List.lookup_append, lookup_optional, List.lookup_cons]), ?_⟩
  refine bind_eq_ok.2 ⟨i.required, ?_, ?_⟩
  · simp [Record.withDefault, List.lookup_append, lookup_optional, decodeBool]
  refine bind_eq_ok.2 ⟨i.shortName, optional_text (by
    simp [List.lookup_append, lookup_optional, List.lookup_cons]), ?_⟩
  refine bind_eq_ok.2 ⟨i.filePattern, optional_text (by
    simp [List.lookup_append, lookup_optional, List.lookup_cons]), ?_⟩
  exact bind_eq_ok.2 ⟨i.canonicalName, optional_text (by
    simp [List.lookup_append, lookup_optional, List.lookup_cons]), rfl⟩

end NodeInfo

namespace Dimension

theorem exact_toJson (d : Dimension) : d.toJson.Exact := by
  refine Exact.object_iff.2 fun m mem => ?_
  simp only [List.mem_cons, List.not_mem_nil, or_false] at mem
  rcases mem with rfl | rfl | rfl
  · exact .text _
  · cases size : d.size with
    | fixed n => exact .word n
    | unlimited => exact .null
  · exact d.info.exact_toJson

theorem decode_toJson (d : Dimension) : decode d.toJson = .ok d := by
  obtain ⟨name, size, info⟩ := d
  refine bind_eq_ok.2 ⟨_, record_object (.refl _) (by decide), bind_eq_ok.2 ⟨name, rfl, ?_⟩⟩
  cases size with
  | fixed n =>
    refine bind_eq_ok.2 ⟨some n, ?_, bind_eq_ok.2 ⟨info, info.decode_toJson, rfl⟩⟩
    change (decodeWord (.ofNat n.toNat)).map some = _
    rw [decodeWord_toNat]
    rfl
  | unlimited => exact bind_eq_ok.2 ⟨none, rfl, bind_eq_ok.2 ⟨info, info.decode_toJson, rfl⟩⟩

theorem exact_toJsons (ds : List Dimension) : (Json.array (ds.map toJson)).Exact := by
  refine Exact.array_iff.2 fun item mem => ?_
  obtain ⟨d, -, rfl⟩ := List.mem_map.1 mem
  exact d.exact_toJson

end Dimension

section Lists

variable {α : Type} {floats : α → List Double} {change : α → α} {f : Double → Double}

/-- A list is unchanged if nothing in it is. -/
theorem map_eq_self_iff_floats {items : List α}
    (each : ∀ a ∈ items, change a = a ↔ ∀ x ∈ floats a, f x = x) :
    items.map change = items ↔ ∀ x ∈ items.flatMap floats, f x = x := by
  induction items with
  | nil => simp
  | cons a rest ih =>
    obtain ⟨first, others⟩ := List.forall_mem_cons.1 each
    rw [List.map_cons, List.cons.injEq, first, ih others, List.flatMap_cons]
    simp only [List.mem_append, or_imp, forall_and]

end Lists

namespace Variable

def floats (v : Variable) : List Double := v.attributes.flatMap AttributeConstraint.floats

def mapFloats (f : Double → Double) (v : Variable) : Variable :=
  { v with attributes := v.attributes.map (AttributeConstraint.mapFloats f) }

theorem mapFloats_eq_self_iff (f : Double → Double) (v : Variable) :
    v.mapFloats f = v ↔ ∀ x ∈ v.floats, f x = x := by
  rw [floats, ← map_eq_self_iff_floats fun c _ => AttributeConstraint.mapFloats_eq_self_iff f c]
  obtain ⟨name, dataType, dimensions, attributes, info⟩ := v
  simp [mapFloats]

theorem carries_toJson (v : Variable) : v.toJson.Carries v.floats := by
  have all := Carries.array fun (c : AttributeConstraint) (_ : c ∈ v.attributes) => c.carries_toJson
  have behind := Carries.member "meta" v.info.exact_toJson.carries .emptyObject
  have attributes := Carries.member "attributes" all behind
  rw [List.append_nil, List.append_nil] at attributes
  exact .member "name" (Exact.text v.name).carries <|
    .member "data_type" (Exact.text v.dataType.token).carries <|
    .member "dimensions" (Exact.texts v.dimensions).carries attributes

theorem decode_toJson (f : Double → Double) (v : Variable)
    (finite : ∀ x ∈ v.floats, x.isFinite = true) :
    decode (v.toJson.mapFloats f) = .ok (v.mapFloats f) := by
  have form : v.toJson.mapFloats f = .object [("name", .text v.name),
      ("data_type", v.dataType.toJson), ("dimensions", .array (v.dimensions.map .text)),
      ("attributes", .array (v.attributes.map fun c => c.toJson.mapFloats f)),
      ("meta", v.info.toJson)] := by
    have dims := (Exact.texts v.dimensions).mapFloats_eq f
    have info := v.info.exact_toJson.mapFloats_eq f
    simp only [toJson, Json.mapFloats, Json.mapFloatsOfMembers, BaseType.toJson, info,
      mapFloatsOfItems_eq, List.map_map] at dims ⊢
    simpa [Function.comp_def] using dims
  rw [form]
  refine bind_eq_ok.2 ⟨_, record_object (.refl _) (by decide), bind_eq_ok.2 ⟨v.name, rfl, ?_⟩⟩
  refine bind_eq_ok.2 ⟨v.dataType, v.dataType.decode_toJson, ?_⟩
  refine bind_eq_ok.2 ⟨v.dimensions, decodeList_texts v.dimensions, ?_⟩
  refine bind_eq_ok.2 ⟨v.attributes.map (AttributeConstraint.mapFloats f), ?_, ?_⟩
  · refine decodeList_map fun c mem => c.decode_toJson f fun x isIn => finite x ?_
    exact List.mem_flatMap.2 ⟨c, mem, isIn⟩
  · exact bind_eq_ok.2 ⟨v.info, v.info.decode_toJson, rfl⟩

end Variable

namespace Group

mutual

/-- The float literals of a dataset. -/
def floats : Group → List Double
  | ⟨_, _, attributes, _, vars, groups⟩ =>
    attributes.flatMap AttributeConstraint.floats ++ vars.flatMap Variable.floats ++
      floatsOfAll groups

def floatsOfAll : List Group → List Double
  | [] => []
  | g :: rest => floats g ++ floatsOfAll rest

end

mutual

/-- The dataset with other float literals. -/
def mapFloats (f : Double → Double) : Group → Group
  | ⟨name, info, attributes, dimensions, vars, groups⟩ =>
    ⟨name, info, attributes.map (AttributeConstraint.mapFloats f), dimensions,
      vars.map (Variable.mapFloats f), mapFloatsOfAll f groups⟩

def mapFloatsOfAll (f : Double → Double) : List Group → List Group
  | [] => []
  | g :: rest => mapFloats f g :: mapFloatsOfAll f rest

end

theorem floatsOfAll_eq (groups : List Group) : floatsOfAll groups = groups.flatMap floats := by
  induction groups with
  | nil => rfl
  | cons g rest ih => rw [floatsOfAll, ih, List.flatMap_cons]

theorem mapFloatsOfAll_eq (f : Double → Double) (groups : List Group) :
    mapFloatsOfAll f groups = groups.map (mapFloats f) := by
  induction groups with
  | nil => rfl
  | cons g rest ih => rw [mapFloatsOfAll, ih, List.map_cons]

theorem toJsons_eq (groups : List Group) : toJsons groups = groups.map toJson := by
  induction groups with
  | nil => rfl
  | cons g rest ih => rw [toJsons, ih, List.map_cons]

theorem decodeAll_eq (items : List Json) : decodeAll items = items.mapM decode := by
  induction items with
  | nil => rfl
  | cons item rest ih => rw [decodeAll, ih, List.mapM_cons]

theorem floats_eq (g : Group) :
    g.floats = g.attributes.flatMap AttributeConstraint.floats ++ g.vars.flatMap Variable.floats ++
      g.groups.flatMap floats := by
  obtain ⟨name, info, attributes, dimensions, vars, groups⟩ := g
  rw [floats, floatsOfAll_eq]

theorem mapFloats_eq_self_iff (f : Double → Double) (g : Group) :
    g.mapFloats f = g ↔ ∀ x ∈ g.floats, f x = x := by
  induction g using induction with
  | step g ih =>
    obtain ⟨name, info, attributes, dimensions, vars, groups⟩ := g
    have inAttributes := map_eq_self_iff_floats fun (c : AttributeConstraint)
      (_ : c ∈ attributes) => c.mapFloats_eq_self_iff f
    have inVars := map_eq_self_iff_floats fun (v : Variable) (_ : v ∈ vars) =>
      v.mapFloats_eq_self_iff f
    have inGroups := map_eq_self_iff_floats ih
    rw [mapFloats, mapFloatsOfAll_eq, floats_eq]
    simp only [mk.injEq, true_and, inAttributes, inVars, inGroups, List.mem_append, or_imp,
      forall_and, and_assoc]

theorem carries_toJson (g : Group) : g.toJson.Carries g.floats := by
  induction g using induction with
  | step g ih =>
    obtain ⟨name, info, attributes, dimensions, vars, groups⟩ := g
    have ofAttributes := Carries.array fun (c : AttributeConstraint) (_ : c ∈ attributes) =>
      c.carries_toJson
    have ofVars := Carries.array fun (v : Variable) (_ : v ∈ vars) => v.carries_toJson
    have ofGroups := Carries.array ih
    have whole := Carries.member "name" (Exact.text name).carries <|
      .member "meta" info.exact_toJson.carries <|
      .member "attributes" ofAttributes <|
      .member "dimensions" (Dimension.exact_toJsons dimensions).carries <|
      .member "variables" ofVars <| .member "groups" ofGroups .emptyObject
    rw [toJson, toJsons_eq, floats_eq]
    simpa only [List.nil_append, List.append_nil, List.append_assoc] using whole

theorem groupsOfMembers_eq {members : List (String × Json)} {items : List Json}
    (h : members.lookup "groups" = some (.array items)) :
    groupsOfMembers members = items.mapM decode := by
  induction members with
  | nil => cases h
  | cons m rest ih =>
    obtain ⟨name, value⟩ := m
    rw [groupsOfMembers]
    split
    · next same =>
      rw [same, List.lookup_cons_self] at h
      obtain rfl := Option.some.inj h
      rw [decodeGroups, decodeAll_eq]
    · next unlike =>
      have differs : ("groups" == name) = false := beq_false_of_ne (Ne.symm unlike)
      rw [List.lookup_cons, differs] at h
      exact ih h

/-- A dataset with finite float literals is read back with the floats that its document then
has. -/
theorem decode_toJson (f : Double → Double) (g : Group)
    (finite : ∀ x ∈ g.floats, x.isFinite = true) :
    decode (g.toJson.mapFloats f) = .ok (g.mapFloats f) := by
  induction g using induction with
  | step g ih =>
    obtain ⟨name, info, attributes, dimensions, vars, groups⟩ := g
    rw [floats_eq] at finite
    obtain ⟨finite, inGroups⟩ := List.forall_mem_append.1 finite
    obtain ⟨inAttributes, inVars⟩ := List.forall_mem_append.1 finite
    -- Floats occur only in attributes, so the other members are left as they are.
    have form : (toJson ⟨name, info, attributes, dimensions, vars, groups⟩).mapFloats f =
        .object [("name", .text name), ("meta", info.toJson),
          ("attributes", .array (attributes.map fun c => c.toJson.mapFloats f)),
          ("dimensions", .array (dimensions.map Dimension.toJson)),
          ("variables", .array (vars.map fun v => v.toJson.mapFloats f)),
          ("groups", .array (groups.map fun g => g.toJson.mapFloats f))] := by
      have inInfo := info.exact_toJson.mapFloats_eq f
      have inDimensions := (Dimension.exact_toJsons dimensions).mapFloats_eq f
      rw [Json.mapFloats] at inDimensions
      simp only [toJson, toJsons_eq, Json.mapFloats, Json.mapFloatsOfMembers, inInfo, inDimensions]
      simp only [mapFloatsOfItems_eq, List.map_map, Function.comp_def]
    rw [form, mapFloats, mapFloatsOfAll_eq, decode]
    refine bind_eq_ok.2 ⟨_, record_object (.refl _) (by decide), bind_eq_ok.2 ⟨name, rfl, ?_⟩⟩
    refine bind_eq_ok.2 ⟨info, info.decode_toJson, ?_⟩
    refine bind_eq_ok.2 ⟨attributes.map (AttributeConstraint.mapFloats f), ?_, ?_⟩
    · refine decodeList_map fun c mem => c.decode_toJson f fun x isIn => inAttributes x ?_
      exact List.mem_flatMap.2 ⟨c, mem, isIn⟩
    refine bind_eq_ok.2 ⟨dimensions, ?_, ?_⟩
    · have each : ∀ d ∈ dimensions, Dimension.decode d.toJson = .ok (id d) := fun d _ =>
        d.decode_toJson
      exact (decodeList_map each).trans (by rw [List.map_id])
    refine bind_eq_ok.2 ⟨vars.map (Variable.mapFloats f), ?_, ?_⟩
    · refine decodeList_map fun v mem => v.decode_toJson f fun x isIn => inVars x ?_
      exact List.mem_flatMap.2 ⟨v, mem, isIn⟩
    refine bind_eq_ok.2 ⟨groups.map (mapFloats f), ?_, rfl⟩
    rw [groupsOfMembers_eq rfl]
    refine decodeList_map fun h mem => ih h mem fun x isIn => inGroups x ?_
    exact List.mem_flatMap.2 ⟨h, mem, isIn⟩

/-- A dataset whose document can be read. -/
structure Readable (d : Dataset) : Prop where
  shallow : d.toJson.depth ≤ depthLimit
  numbers : ∀ x ∈ d.floats, (rereadFloat? x).isSome = true

/-- What is read out of the document of a dataset. -/
def reread (d : Dataset) : Dataset := d.mapFloats rereadFloat

/-- A dataset whose document is read back as it was written. -/
structure ReadsBack (d : Dataset) : Prop where
  shallow : d.toJson.depth ≤ depthLimit
  numbers : ∀ x ∈ d.floats, rereadFloat? x = some x

theorem readsBack_iff {d : Dataset} : d.ReadsBack ↔ d.Readable ∧ d.reread = d := by
  constructor
  · rintro ⟨shallow, numbers⟩
    refine ⟨⟨shallow, fun x mem => ?_⟩, (d.mapFloats_eq_self_iff _).2 fun x mem => ?_⟩
    · rw [numbers x mem]
      rfl
    · rw [rereadFloat, numbers x mem, Option.getD_some]
  · rintro ⟨⟨shallow, numbers⟩, same⟩
    refine ⟨shallow, fun x mem => ?_⟩
    obtain ⟨y, found⟩ := Option.isSome_iff_exists.1 (numbers x mem)
    have fixed := (d.mapFloats_eq_self_iff _).1 same x mem
    rw [rereadFloat, found, Option.getD_some] at fixed
    rw [found, fixed]

/-- What is read out of the document of a dataset with finite floats. -/
theorem decodeDocument_write {l : Layout} {d d' : Dataset}
    (finite : ∀ x ∈ d.floats, x.isFinite = true) :
    decodeDocument decode (write l d.toJson) = some d' ↔ d.Readable ∧ d' = d.reread := by
  have carries := d.carries_toJson
  have readable : ∀ j, read? (write l d.toJson) = some j ↔
      d.Readable ∧ j = d.toJson.mapFloats rereadFloat := by
    intro j
    rw [read?_write_eq_some carries.writable]
    simp only [carries.float_mem_iff finite]
    exact ⟨fun ⟨shallow, numbers, same⟩ => ⟨⟨shallow, numbers⟩, same⟩,
      fun ⟨⟨shallow, numbers⟩, same⟩ => ⟨shallow, numbers, same⟩⟩
  rw [decodeDocument]
  cases read : read? (write l d.toJson) with
  | none =>
    refine ⟨nofun, fun ⟨isReadable, _⟩ => ?_⟩
    cases read.symm.trans ((readable _).2 ⟨isReadable, rfl⟩)
  | some j =>
    obtain ⟨isReadable, rfl⟩ := (readable j).1 read
    change (decode (d.toJson.mapFloats rereadFloat)).toOption = some d' ↔ _
    rw [decode_toJson _ d finite]
    simp only [Except.toOption, Option.some.injEq]
    exact ⟨fun same => ⟨isReadable, same.symm⟩, fun ⟨_, same⟩ => same.symm⟩

end Group

end ProductSpec
