/-
  Files read back out of their documents. A stored value is faithful if it can be told from its
  document value and its type; a file of faithful values is read as it was written if its groups
  are not nested too deep and each of its floats is read as itself.
-/
import ProductSpec.DataFile.Codec
import ProductSpec.Proofs.Attribute.RoundTrip
import ProductSpec.Proofs.NameMap
import ProductSpec.Proofs.Number.Convert
import ProductSpec.Store.Manifest

namespace ProductSpec

open Number Json

theorem BaseType.limit_le (t : BaseType) : (t.limit : Int) ≤ 0x8000000000000000 := by
  cases t <;> decide

namespace Scalar

/-- The floats that are written for a value. -/
def floats : Scalar → List Double
  | float32 x => [x.widen]
  | float64 x => [x]
  | _ => []

/-- Whether a value is what its document value and its type stand for. -/
def Faithful (s : Scalar) : Prop := ofPlain? s.baseType s.toPlain = some s

theorem carries_toPlain (s : Scalar) : s.toPlain.Carries s.floats := by
  cases s with
  | str s | char s => exact (Exact.text s).carries
  | float32 x => exact .ofDouble x.widen
  | float64 x => exact .ofDouble x
  | integer t n fits =>
    obtain ⟨-, least, greatest⟩ := fits
    have bound := t.limit_le
    exact (Exact.int ⟨by omega, by omega⟩).carries

theorem faithful_integer {t : BaseType} {n : Int} (fits : t.Holds n) :
    (integer t n fits).Faithful := by
  have inWord : fitsInt64 n = true := by
    obtain ⟨-, least, greatest⟩ := fits
    have bound := t.limit_le
    simp only [fitsInt64, Bool.and_eq_true, decide_eq_true_eq]
    omega
  have read : (Json.int n).asInt64? = some n := if_pos inWord
  have isInteger : t.isInteger = true := fits.1
  unfold Faithful ofPlain? toPlain baseType
  cases t with
  | str | char | float32 | float64 => cases isInteger
  | _ => simp only [read, Option.bind_some, dif_pos fits]

theorem faithful_float64 {x : Double} (finite : x.isFinite = true) : (float64 x).Faithful := by
  have form : (float64 x).toPlain = .float x := if_pos finite
  unfold Faithful
  rw [form]
  rfl

theorem faithful_float32 {x : Single} (finite : x.isFinite = true) : (float32 x).Faithful := by
  have form : (float32 x).toPlain = .float x.widen := if_pos ((Binary.isFinite_widen x).trans finite)
  unfold Faithful
  rw [form]
  exact congrArg (fun y => some (float32 y)) (Binary.narrow_widen finite)

/-- Only a float that is not finite keeps a value from being faithful. -/
theorem faithful {s : Scalar} (finite : ∀ x ∈ s.floats, x.isFinite = true) : s.Faithful := by
  cases s with
  | str | char => rfl
  | integer t n fits => exact faithful_integer fits
  | float32 x =>
    exact faithful_float32 ((Binary.isFinite_widen x).symm.trans
      (finite _ (List.mem_singleton_self _)))
  | float64 x => exact faithful_float64 (finite x (List.mem_singleton_self x))

end Scalar

namespace AttributeValue

def floats : AttributeValue → List Double
  | scalar s => s.floats
  | array _ elements => elements.flatMap Scalar.floats

/-- The elements of a faithful array are faithful values of its type. -/
def Faithful : AttributeValue → Prop
  | scalar s => s.Faithful
  | array t elements => ∀ s ∈ elements, s.baseType = t ∧ s.Faithful

theorem carries_toJson (v : AttributeValue) : v.toJson.Carries v.floats := by
  have value : v.toPlain.Carries v.floats := by
    cases v with
    | scalar s => exact s.carries_toPlain
    | array t elements => exact .array fun s _ => s.carries_toPlain
  have behind := Carries.member "value" value .emptyObject
  rw [List.append_nil] at behind
  exact .member "type" (Exact.text v.baseType.token).carries behind

/-- What a single value is written as is no list. -/
theorem ofPlain_toPlain (t : BaseType) (s : Scalar) :
    ofPlain t s.toPlain = (Scalar.ofPlain t s.toPlain).map scalar := by
  have floats (x : Double) :
      ofPlain t (.ofDouble x) = (Scalar.ofPlain t (.ofDouble x)).map scalar := by
    unfold Json.ofDouble
    split <;> rfl
  cases s with
  | str | char | integer => rfl
  | float32 x => exact floats x.widen
  | float64 x => exact floats x

/-- The elements of an array are of its type. -/
def Uniform : AttributeValue → Prop
  | scalar _ => True
  | array t elements => ∀ s ∈ elements, s.baseType = t

def scalars : AttributeValue → List Scalar
  | scalar s => [s]
  | array _ elements => elements

/-- The value with other scalars. -/
def mapScalars (f : Scalar → Scalar) : AttributeValue → AttributeValue
  | scalar s => scalar (f s)
  | array t elements => array t (elements.map f)

theorem Faithful.uniform {v : AttributeValue} (h : v.Faithful) : v.Uniform := by
  cases v with
  | scalar s => trivial
  | array t elements => exact fun s mem => (h s mem).1

theorem faithful {v : AttributeValue} (uniform : v.Uniform)
    (finite : ∀ x ∈ v.floats, x.isFinite = true) : v.Faithful := by
  cases v with
  | scalar s => exact Scalar.faithful finite
  | array t elements =>
    exact fun s mem => ⟨uniform s mem, Scalar.faithful fun x isIn =>
      finite x (List.mem_flatMap.2 ⟨s, mem, isIn⟩)⟩

/-- A uniform value is read with its scalars as they are read. -/
theorem decode_mapScalars {v : AttributeValue} {f : Scalar → Scalar} (uniform : v.Uniform)
    (each : ∀ s ∈ v.scalars, Scalar.ofPlain s.baseType s.toPlain = .ok (f s)) :
    decode v.toJson = .ok (v.mapScalars f) := by
  refine bind_eq_ok.2 ⟨_, record_object (.refl _) (by decide), ?_⟩
  refine bind_eq_ok.2 ⟨v.baseType, v.baseType.decode_toJson, ?_⟩
  refine bind_eq_ok.2 ⟨v.toPlain, rfl, ?_⟩
  change ofPlain v.baseType v.toPlain = .ok (v.mapScalars f)
  cases v with
  | scalar s =>
    change ofPlain s.baseType s.toPlain = _
    rw [ofPlain_toPlain, each s (List.mem_singleton_self s)]
    rfl
  | array t elements =>
    have all : (elements.map Scalar.toPlain).mapM (Scalar.ofPlain t) = .ok (elements.map f) := by
      rw [mapM_eq_ok, List.forall₂_map_left_iff, List.forall₂_map_right_iff, List.forall₂_same]
      intro s mem
      rw [← uniform s mem]
      exact each s mem
    change ((elements.map Scalar.toPlain).mapM (Scalar.ofPlain t)).map (array t) = _
    rw [all]
    rfl

theorem decode_toJson {v : AttributeValue} (faithful : v.Faithful) : decode v.toJson = .ok v := by
  have each : ∀ s ∈ v.scalars, Scalar.ofPlain s.baseType s.toPlain = .ok (id s) := by
    intro s mem
    have known : s.Faithful := by
      cases v with
      | scalar s' => exact List.mem_singleton.1 mem ▸ faithful
      | array t elements => exact (faithful s mem).2
    rw [Scalar.ofPlain, known]
    rfl
  have same : v.mapScalars id = v := by cases v <;> simp [mapScalars]
  rw [decode_mapScalars faithful.uniform each, same]

end AttributeValue

theorem decodeAttributes_ofMap {m : NameMap AttributeValue} {f : AttributeValue → AttributeValue}
    (each : ∀ v ∈ m.values, AttributeValue.decode v.toJson = .ok (f v)) :
    decodeAttributes (ofMap AttributeValue.toJson m) = .ok (m.mapValues f) := by
  have all : (m.entries.map fun e => (e.1, e.2.toJson)).mapM (fun e => do
      return (e.1, ← AttributeValue.decode e.2) :
      String × Json → Decoded (String × AttributeValue)) = .ok (m.mapValues f).entries := by
    rw [mapM_eq_ok, NameMap.mapValues, List.forall₂_map_left_iff, List.forall₂_map_right_iff,
      List.forall₂_same]
    intro e mem
    exact bind_eq_ok.2 ⟨f e.2, each e.2 (List.mem_map_of_mem mem), rfl⟩
  refine bind_eq_ok.2 ⟨_, all, ?_⟩
  rw [NameMap.ofList_entries]
  rfl

namespace FileDimension

theorem exact_toJson (d : FileDimension) : d.toJson.Exact := by
  refine Exact.object_iff.2 fun m mem => ?_
  simp only [List.mem_cons, List.not_mem_nil, or_false] at mem
  rcases mem with rfl | rfl | rfl
  · exact .text _
  · exact .word _
  · exact .bool _

theorem decode_toJson (d : FileDimension) : decode d.toJson = .ok d := by
  refine bind_eq_ok.2 ⟨_, record_object (.refl _) (by decide), bind_eq_ok.2 ⟨d.name, rfl, ?_⟩⟩
  exact bind_eq_ok.2 ⟨d.size, decodeWord_toNat d.size, bind_eq_ok.2 ⟨d.unlimited, rfl, rfl⟩⟩

end FileDimension

namespace FileVariable

def floats (v : FileVariable) : List Double := v.attributes.values.flatMap AttributeValue.floats

theorem carries_toJson (v : FileVariable) : v.toJson.Carries v.floats := by
  have attributes := Carries.ofMap fun (a : AttributeValue) (_ : a ∈ v.attributes.values) =>
    a.carries_toJson
  have behind := Carries.member "attributes" attributes .emptyObject
  rw [List.append_nil] at behind
  exact .member "name" (Exact.text v.name).carries <|
    .member "data_type" (Exact.text v.dataType.token).carries <|
    .member "dimensions" (Exact.texts v.dimensions).carries behind

/-- The variable with other attribute values. -/
def mapValues (f : AttributeValue → AttributeValue) (v : FileVariable) : FileVariable :=
  { v with attributes := v.attributes.mapValues f }

theorem decode_mapValues {v : FileVariable} {f : AttributeValue → AttributeValue}
    (each : ∀ a ∈ v.attributes.values, AttributeValue.decode a.toJson = .ok (f a)) :
    decode v.toJson = .ok (v.mapValues f) := by
  refine bind_eq_ok.2 ⟨_, record_object (.refl _) (by decide), ?_⟩
  refine bind_eq_ok.2 ⟨⟨some v.name, some v.dataType, v.dimensions, v.attributes.mapValues f⟩, ?_,
    bind_eq_ok.2 ⟨v.mapValues f, rfl, rfl⟩⟩
  simp only [List.foldlM_cons, List.foldlM_nil, Draft.withMember, decodeText,
    v.dataType.decode_toJson, decodeList_texts, decodeAttributes_ofMap each]
  rfl

end FileVariable

namespace FileGroup

/-- What holds of a group if it holds of the groups in it holds of every group. -/
theorem induction {motive : FileGroup → Prop}
    (step : ∀ g, (∀ h ∈ g.groups, motive h) → motive g) (g : FileGroup) : motive g :=
  step g fun h _ => induction step h
termination_by g
decreasing_by
  obtain ⟨name, attributes, dimensions, vars, groups⟩ := g
  have smaller : sizeOf h < sizeOf groups := List.sizeOf_lt_of_mem ‹_›
  simp only [mk.sizeOf_spec]
  omega

mutual

/-- The values of all attributes in a file, at any depth. -/
def values : FileGroup → List AttributeValue
  | ⟨_, attributes, _, vars, groups⟩ =>
    attributes.values ++ vars.flatMap (fun v => v.attributes.values) ++ valuesOfAll groups

def valuesOfAll : List FileGroup → List AttributeValue
  | [] => []
  | g :: rest => values g ++ valuesOfAll rest

end

def floats (g : FileGroup) : List Double := g.values.flatMap AttributeValue.floats

theorem valuesOfAll_eq (groups : List FileGroup) : valuesOfAll groups = groups.flatMap values := by
  induction groups with
  | nil => rfl
  | cons g rest ih => rw [valuesOfAll, ih, List.flatMap_cons]

theorem values_eq (g : FileGroup) :
    g.values = g.attributes.values ++ g.vars.flatMap (fun v => v.attributes.values) ++
      g.groups.flatMap values := by
  obtain ⟨name, attributes, dimensions, vars, groups⟩ := g
  rw [values, valuesOfAll_eq]

theorem toJsons_eq (groups : List FileGroup) : toJsons groups = groups.map toJson := by
  induction groups with
  | nil => rfl
  | cons g rest ih => rw [toJsons, ih, List.map_cons]

theorem decodeAll_eq (items : List Json) : decodeAll items = items.mapM decode := by
  induction items with
  | nil =>
    rw [decodeAll, List.mapM_nil]
    rfl
  | cons item rest ih => rw [decodeAll, ih, List.mapM_cons]

theorem carries_toJson (g : FileGroup) : g.toJson.Carries g.floats := by
  induction g using induction with
  | step g ih =>
    have attributes := Carries.ofMap fun (a : AttributeValue) (_ : a ∈ g.attributes.values) =>
      a.carries_toJson
    have dimensions : (Json.array (g.dimensions.map FileDimension.toJson)).Exact := by
      refine Exact.array_iff.2 fun item mem => ?_
      obtain ⟨d, -, rfl⟩ := List.mem_map.1 mem
      exact d.exact_toJson
    have vars := Carries.array fun (v : FileVariable) (_ : v ∈ g.vars) => v.carries_toJson
    have groups := Carries.array ih
    have whole := Carries.member "name" (Exact.text g.name).carries <|
      .member "attributes" attributes <| .member "dimensions" dimensions.carries <|
      .member "variables" vars <| .member "groups" groups .emptyObject
    have floats : g.floats = g.attributes.values.flatMap AttributeValue.floats ++
        g.vars.flatMap FileVariable.floats ++ g.groups.flatMap floats := by
      unfold FileGroup.floats
      rw [values_eq, List.flatMap_append, List.flatMap_append, List.flatMap_assoc,
        List.flatMap_assoc]
      rfl
    rw [floats]
    obtain ⟨name, attributes, dimensions, vars, groups⟩ := g
    rw [toJson, toJsons_eq]
    simpa only [List.nil_append, List.append_nil, List.append_assoc] using whole

mutual

/-- The file with other attribute values, at any depth. -/
def mapValues (f : AttributeValue → AttributeValue) : FileGroup → FileGroup
  | ⟨name, attributes, dimensions, vars, groups⟩ =>
    ⟨name, attributes.mapValues f, dimensions, vars.map (FileVariable.mapValues f),
      mapValuesOfAll f groups⟩

def mapValuesOfAll (f : AttributeValue → AttributeValue) : List FileGroup → List FileGroup
  | [] => []
  | g :: rest => mapValues f g :: mapValuesOfAll f rest

end

theorem mapValuesOfAll_eq (f : AttributeValue → AttributeValue) (groups : List FileGroup) :
    mapValuesOfAll f groups = groups.map (mapValues f) := by
  induction groups with
  | nil => rfl
  | cons g rest ih => rw [mapValuesOfAll, ih, List.map_cons]

theorem mapValues_id (g : FileGroup) : g.mapValues id = g := by
  have attributes (m : NameMap AttributeValue) : m.mapValues id = m :=
    NameMap.mapValues_eq_self_iff.2 fun _ _ => rfl
  induction g using induction with
  | step g ih =>
    have groups : g.groups.map (mapValues id) = g.groups :=
      (List.map_congr_left ih).trans (List.map_id _)
    have vars : g.vars.map (FileVariable.mapValues id) = g.vars :=
      (List.map_congr_left fun v _ => by rw [FileVariable.mapValues, attributes]; rfl).trans
        (List.map_id _)
    obtain ⟨name, values, dimensions, stored, inner⟩ := g
    rw [mapValues, mapValuesOfAll_eq, attributes, vars, groups]

/-- A file is read with its values as they are read. -/
theorem decode_mapValues {g : FileGroup} {f : AttributeValue → AttributeValue}
    (each : ∀ v ∈ g.values, AttributeValue.decode v.toJson = .ok (f v)) :
    decode g.toJson = .ok (g.mapValues f) := by
  induction g using induction with
  | step g ih =>
    rw [values_eq] at each
    obtain ⟨each, inGroups⟩ := List.forall_mem_append.1 each
    obtain ⟨inAttributes, inVars⟩ := List.forall_mem_append.1 each
    have dimensions : decodeList FileDimension.decode
        (.array (g.dimensions.map FileDimension.toJson)) = .ok g.dimensions := by
      have each : ∀ d ∈ g.dimensions, FileDimension.decode d.toJson = .ok (id d) := fun d _ =>
        d.decode_toJson
      exact (decodeList_map each).trans (by rw [List.map_id])
    have vars : decodeList FileVariable.decode (.array (g.vars.map FileVariable.toJson)) =
        .ok (g.vars.map (FileVariable.mapValues f)) :=
      decodeList_map fun v mem => FileVariable.decode_mapValues fun a isIn =>
        inVars a (List.mem_flatMap.2 ⟨v, mem, isIn⟩)
    have groups : decodeGroups (.array (g.groups.map toJson)) =
        .ok (g.groups.map (mapValues f)) := by
      rw [decodeGroups, decodeAll_eq, mapM_eq_ok, List.forall₂_map_left_iff,
        List.forall₂_map_right_iff, List.forall₂_same]
      exact fun h mem => ih h mem fun v isIn => inGroups v (List.mem_flatMap.2 ⟨h, mem, isIn⟩)
    have attributes := decodeAttributes_ofMap inAttributes
    obtain ⟨name, attributes, dimensions, vars, groups⟩ := g
    rw [toJson, toJsons_eq, mapValues, mapValuesOfAll_eq, decode,
      if_neg (by simp [memberNames, countName])]
    simp only [withMembers, withMember, *]
    rfl

/-- A file of faithful values is what its document stands for. -/
theorem decode_toJson {g : FileGroup} (faithful : ∀ v ∈ g.values, v.Faithful) :
    decode g.toJson = .ok g := by
  rw [decode_mapValues (f := id) fun v mem => AttributeValue.decode_toJson (faithful v mem),
    mapValues_id]

/-- A file whose document is read back as it was written. -/
structure ReadsBack (file : DataFile) : Prop where
  shallow : file.toJson.depth ≤ depthLimit
  numbers : ∀ x ∈ file.floats, rereadFloat? x = some x

instance (file : DataFile) : Decidable file.ReadsBack :=
  decidable_of_iff (file.toJson.depth ≤ depthLimit ∧ ∀ x ∈ file.floats, rereadFloat? x = some x)
    ⟨fun ⟨shallow, numbers⟩ => ⟨shallow, numbers⟩, fun h => ⟨h.shallow, h.numbers⟩⟩

/-- What cannot be written as a number is not read as one. -/
theorem isFinite_of_reread {x y : Double} (h : rereadFloat? x = some y) : x.isFinite = true := by
  cases x with
  | nan => cases h
  | infinite negative =>
    have none : rereadFloat? (.infinite negative) = none := by cases negative <;> decide +kernel
    cases none.symm.trans h
  | finite => rfl

theorem ReadsBack.isFinite {file : DataFile} (h : file.ReadsBack) {x : Double}
    (mem : x ∈ file.floats) : x.isFinite = true :=
  isFinite_of_reread (h.numbers x mem)

theorem decodeDocument_write {l : Layout} {file : DataFile}
    (faithful : ∀ v ∈ file.values, v.Faithful) (h : file.ReadsBack) :
    decodeDocument decode (write l file.toJson) = some file := by
  have carries := file.carries_toJson
  have reread : ∀ x, .float x ∈ file.toJson.leaves → rereadFloat? x = some x := fun x mem =>
    h.numbers x ((carries.float_mem_iff (fun _ => h.isFinite) x).1 mem)
  have same : file.toJson.mapFloats rereadFloat = file.toJson := by
    refine (mapFloats_eq_self_iff _ _).2 fun x mem => ?_
    rw [rereadFloat, reread x mem, Option.getD_some]
  have read : read? (write l file.toJson) = some file.toJson :=
    (read?_write_eq_some carries.writable).2
      ⟨h.shallow, fun x mem => by rw [reread x mem]; rfl, same.symm⟩
  rw [decodeDocument, read]
  change (decode file.toJson).toOption = some file
  rw [decode_toJson faithful]
  rfl

end FileGroup

end ProductSpec
