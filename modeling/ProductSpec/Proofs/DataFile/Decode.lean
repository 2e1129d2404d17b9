/-
  Which documents stand for stored values, and what files are read back as. A value is read by its
  type, an array element by element; and whatever is read or made up for a dataset is uniform, so
  it is read back as it was but for the floats that are not finite.
-/
import ProductSpec.Proofs.DataFile.ExampleDocument

namespace ProductSpec

open Number Json

/-- What a float is read back as: one that is not finite has no written form. -/
def Number.Binary.settled {f : BinaryFormat} (x : Binary f) : Binary f :=
  if x.isFinite then x else .nan

/-- Whether a document value stands for a single value of the kind. -/
def BaseType.Admits (t : BaseType) : Json → Prop
  | .text _ => t.isText = true
  | .int n => t.isFloat = true ∨ t.Holds n
  | .float _ | .null => t.isFloat = true
  | .bool _ | .array _ | .object _ => False

/-- Whether a document value stands for a value of the kind or for an array of such values. -/
def BaseType.AdmitsAll (t : BaseType) : Json → Prop
  | .array items => ∀ item ∈ items, t.Admits item
  | value => t.Admits value

namespace Scalar

def settled : Scalar → Scalar
  | float32 x => float32 x.settled
  | float64 x => float64 x.settled
  | other => other

theorem ofPlain_baseType (s : Scalar) : Scalar.ofPlain s.baseType s.toPlain = .ok s.settled := by
  have known {s : Scalar} (h : s.Faithful) : Scalar.ofPlain s.baseType s.toPlain = .ok s := by
    rw [Scalar.ofPlain, h]
  cases s with
  | str | char => rfl
  | integer t n fits => exact known (faithful_integer fits)
  | float32 x =>
    cases x with
    | nan | infinite => rfl
    | finite => exact known (faithful_float32 rfl)
  | float64 x => cases x <;> rfl

theorem baseType_of_ofPlain {t : BaseType} {j : Json} {s : Scalar} (h : ofPlain t j = .ok s) :
    s.baseType = t := by
  have found : ofPlain? t j = some s := by
    unfold ofPlain at h
    split at h
    · next found => exact found.trans (congrArg some (Except.ok.inj h))
    · cases h
  unfold ofPlain? at found
  split at found
  · obtain ⟨text, -, rfl⟩ := Option.map_eq_some_iff.1 found
    rfl
  · obtain ⟨text, -, rfl⟩ := Option.map_eq_some_iff.1 found
    rfl
  · obtain ⟨x, -, rfl⟩ := Option.map_eq_some_iff.1 found
    rfl
  · obtain ⟨x, -, rfl⟩ := Option.map_eq_some_iff.1 found
    rfl
  · obtain ⟨n, -, found⟩ := Option.bind_eq_some_iff.1 found
    split at found
    · cases found
      rfl
    · cases found

theorem asInt64?_eq_some {j : Json} {n : Int} (h : j.asInt64? = some n) : j = .int n := by
  cases j with
  | int m =>
    simp only [asInt64?, Option.ite_none_right_eq_some, Option.some.injEq] at h
    rw [h.2]
  | _ => cases h

/-- A kind has a value for just the documents that it admits. -/
theorem isSome_ofPlain?_iff (t : BaseType) (j : Json) :
    (ofPlain? t j).isSome = true ↔ t.Admits j := by
  have integer (isInteger : t.isInteger = true) :
      (ofPlain? t j).isSome = true ↔ ∃ n, j = .int n ∧ t.Holds n := by
    constructor
    · intro read
      obtain ⟨s, found⟩ := Option.isSome_iff_exists.1 read
      cases t with
      | str | char | float32 | float64 => cases isInteger
      | _ =>
        obtain ⟨n, word, found⟩ := Option.bind_eq_some_iff.1 found
        split at found
        · next fits => exact ⟨n, asInt64?_eq_some word, fits⟩
        · cases found
    · rintro ⟨n, rfl, fits⟩
      have known : ofPlain? t (.int n) = some (.integer t n fits) := faithful_integer fits
      rw [known]
      rfl
  cases t with
  | str | char | float32 | float64 =>
    cases j <;> simp [ofPlain?, Json.asText?, double?, Json.asDouble?, BaseType.Admits,
      BaseType.isText, BaseType.isFloat, BaseType.Holds, BaseType.isInteger]
  | _ =>
    rw [integer rfl]
    cases j <;> simp [BaseType.Admits, BaseType.isText, BaseType.isFloat]

theorem exists_ofPlain_iff (t : BaseType) (j : Json) :
    (∃ s, ofPlain t j = .ok s) ↔ t.Admits j := by
  rw [← isSome_ofPlain?_iff]
  unfold ofPlain
  cases ofPlain? t j <;> simp

end Scalar

namespace AttributeValue

/-- What a value is read back as. -/
def settled : AttributeValue → AttributeValue := mapScalars Scalar.settled

theorem uniform_of_ofPlain {t : BaseType} {j : Json} {v : AttributeValue}
    (h : ofPlain t j = .ok v) : v.Uniform := by
  unfold ofPlain at h
  split at h
  · obtain ⟨elements, read, rfl⟩ := map_eq_ok.1 h
    intro s mem
    obtain ⟨item, -, read⟩ := exists_of_mem_mapM read mem
    exact Scalar.baseType_of_ofPlain read
  · obtain ⟨s, -, rfl⟩ := map_eq_ok.1 h
    trivial

theorem uniform_of_decode {j : Json} {v : AttributeValue} (h : decode j = .ok v) : v.Uniform := by
  obtain ⟨r, -, h⟩ := bind_eq_ok.1 h
  obtain ⟨t, -, h⟩ := bind_eq_ok.1 h
  obtain ⟨plain, -, h⟩ := bind_eq_ok.1 h
  obtain ⟨-, -, h⟩ := bind_eq_ok.1 h
  exact uniform_of_ofPlain h

theorem exists_ofPlain_iff (t : BaseType) (j : Json) :
    (∃ v, ofPlain t j = .ok v) ↔ t.AdmitsAll j := by
  have single : (∃ v, (Scalar.ofPlain t j).map scalar = .ok v) ↔ t.Admits j := by
    rw [← Scalar.exists_ofPlain_iff]
    constructor
    · rintro ⟨v, made⟩
      obtain ⟨s, read, -⟩ := map_eq_ok.1 made
      exact ⟨s, read⟩
    · rintro ⟨s, read⟩
      exact ⟨scalar s, map_eq_ok.2 ⟨s, read, rfl⟩⟩
  cases j with
  | array items =>
    change (∃ v, (items.mapM (Scalar.ofPlain t)).map (array t) = .ok v) ↔
      ∀ item ∈ items, t.Admits item
    simp only [← Scalar.exists_ofPlain_iff]
    constructor
    · rintro ⟨v, made⟩
      obtain ⟨elements, read, -⟩ := map_eq_ok.1 made
      exact fun item mem => (mem_of_forall₂ (mapM_eq_ok.1 read) mem).imp fun _ h => h.2
    · intro each
      obtain ⟨elements, read⟩ := exists_forall₂ each
      exact ⟨array t elements, map_eq_ok.2 ⟨elements, mapM_eq_ok.2 read, rfl⟩⟩
  | _ => exact single

/-- An object with a type and a value is read just if the type admits the value. -/
theorem exists_decode_iff {members : List (String × Json)} {type value : Json} {t : BaseType}
    (once : countName "type" members ≤ 1 ∧ countName "value" members ≤ 1)
    (typed : members.lookup "type" = some type) (known : BaseType.decode type = .ok t)
    (valued : members.lookup "value" = some value) :
    (∃ v, decode (.object members) = .ok v) ↔ t.AdmitsAll value := by
  have opened : record ["type", "value"] (.object members) = .ok ⟨members, false⟩ := by
    rw [record, if_neg (by simp [once])]
  have readType : Record.required ⟨members, false⟩ "type" BaseType.decode = .ok t := by
    rw [Record.required, typed]
    exact known
  have readValue : Record.required ⟨members, false⟩ "value" .ok = .ok value := by
    rw [Record.required, valued]
  have read : decode (.object members) = ofPlain t value := by
    rw [decode, opened]
    change (Record.required ⟨members, false⟩ "type" BaseType.decode >>= _) = _
    rw [readType]
    change (Record.required ⟨members, false⟩ "value" .ok >>= _) = _
    rw [readValue]
    rfl
  rw [read, exists_ofPlain_iff]

end AttributeValue

/-- A file in which the elements of each array are of its type. -/
def FileGroup.Uniform (g : FileGroup) : Prop := ∀ v ∈ g.values, v.Uniform

section Decoding

theorem uniform_of_decodeAttributes {j : Json} {m : NameMap AttributeValue}
    (h : decodeAttributes j = .ok m) : ∀ v ∈ m.values, v.Uniform := by
  unfold decodeAttributes at h
  split at h
  · obtain ⟨entries, read, made⟩ := bind_eq_ok.1 h
    cases made
    intro v mem
    obtain ⟨e, isIn, rfl⟩ := List.mem_map.1 mem
    obtain ⟨⟨name, value⟩, -, read⟩ := exists_of_mem_mapM read (NameMap.mem_of_mem_ofList isIn)
    obtain ⟨v, decoded, made⟩ := bind_eq_ok.1 read
    cases made
    exact AttributeValue.uniform_of_decode decoded
  · cases h

namespace FileVariable

theorem Draft.uniform_of_withMember {d d' : Draft} {m : String × Json}
    (known : ∀ a ∈ d.attributes.values, a.Uniform) (h : d.withMember m.1 m.2 = .ok d') :
    ∀ a ∈ d'.attributes.values, a.Uniform := by
  unfold withMember at h
  split at h
  · obtain ⟨name, -, rfl⟩ := map_eq_ok.1 h
    exact known
  · obtain ⟨t, -, rfl⟩ := map_eq_ok.1 h
    exact known
  · obtain ⟨names, -, rfl⟩ := map_eq_ok.1 h
    exact known
  · obtain ⟨attributes, read, rfl⟩ := map_eq_ok.1 h
    exact uniform_of_decodeAttributes read
  · cases h
    exact known

theorem uniform_of_decode {j : Json} {v : FileVariable} (h : decode j = .ok v) :
    ∀ a ∈ v.attributes.values, a.Uniform := by
  obtain ⟨r, -, h⟩ := bind_eq_ok.1 h
  obtain ⟨draft, filled, h⟩ := bind_eq_ok.1 h
  obtain ⟨v', finished, h⟩ := bind_eq_ok.1 h
  obtain ⟨-, -, made⟩ := bind_eq_ok.1 h
  cases made
  have uniform : ∀ a ∈ draft.attributes.values, a.Uniform :=
    foldlM_invariant (fun d : Draft => ∀ a ∈ d.attributes.values, a.Uniform)
      (fun _ _ _ => Draft.uniform_of_withMember) (fun _ mem => absurd mem List.not_mem_nil) filled
  unfold Draft.finish at finished
  split at finished
  · cases finished
    exact uniform
  · cases finished

end FileVariable

namespace FileGroup

theorem uniform_iff {g : FileGroup} :
    g.Uniform ↔ (∀ v ∈ g.attributes.values, v.Uniform) ∧
      (∀ w ∈ g.vars, ∀ v ∈ w.attributes.values, v.Uniform) ∧ ∀ h ∈ g.groups, h.Uniform := by
  unfold Uniform
  rw [values_eq]
  simp only [List.forall_mem_append, List.forall_mem_flatMap, and_assoc]

theorem uniform_blank : blank.Uniform := by
  rw [uniform_iff]
  refine ⟨fun _ mem => ?_, fun _ mem => ?_, fun _ mem => ?_⟩ <;> exact absurd mem List.not_mem_nil

mutual

/-- Whatever document a file is read from, it is uniform. -/
theorem uniform_of_decode {j : Json} {g : FileGroup} (h : decode j = .ok g) : g.Uniform := by
  match j with
  | .object members =>
    rw [decode] at h
    split at h
    · cases h
    · exact uniform_of_withMembers uniform_blank h
  | .array items =>
    rw [decode] at h
    exact uniform_of_withValues uniform_blank h
  | .null | .bool _ | .int _ | .float _ | .text _ =>
    rw [decode] at h
    · cases h
    all_goals nofun
termination_by (sizeOf j, 0)

theorem uniform_of_withMembers {g g' : FileGroup} {members : List (String × Json)}
    (known : g.Uniform) (h : withMembers g members = .ok g') : g'.Uniform := by
  match members with
  | [] =>
    rw [withMembers] at h
    cases h
    exact known
  | (name, value) :: rest =>
    rw [withMembers] at h
    obtain ⟨next, read, others⟩ := bind_eq_ok.1 h
    exact uniform_of_withMembers (uniform_of_withMember known read) others
termination_by (sizeOf members, 0)

theorem uniform_of_withValues {g g' : FileGroup} {names : List String} {items : List Json}
    (known : g.Uniform) (h : withValues g names items = .ok g') : g'.Uniform := by
  match items, names with
  | [], _ =>
    rw [withValues] at h
    cases h
    exact known
  | value :: rest, [] =>
    rw [withValues] at h
    cases h
  | value :: rest, name :: names =>
    rw [withValues] at h
    obtain ⟨next, read, others⟩ := bind_eq_ok.1 h
    exact uniform_of_withValues (uniform_of_withMember known read) others
termination_by (sizeOf items, 0)

theorem uniform_of_withMember {g g' : FileGroup} {name : String} {value : Json}
    (known : g.Uniform) (h : withMember g name value = .ok g') : g'.Uniform := by
  rw [uniform_iff] at known ⊢
  obtain ⟨attributes, vars, groups⟩ := known
  unfold withMember at h
  split at h
  · obtain ⟨label, -, rfl⟩ := map_eq_ok.1 h
    exact ⟨attributes, vars, groups⟩
  · obtain ⟨m, read, rfl⟩ := map_eq_ok.1 h
    exact ⟨uniform_of_decodeAttributes read, vars, groups⟩
  · obtain ⟨dimensions, -, rfl⟩ := map_eq_ok.1 h
    exact ⟨attributes, vars, groups⟩
  · obtain ⟨stored, read, rfl⟩ := map_eq_ok.1 h
    refine ⟨attributes, fun w mem => ?_, groups⟩
    unfold decodeList at read
    split at read
    · obtain ⟨item, -, read⟩ := exists_of_mem_mapM read mem
      exact FileVariable.uniform_of_decode read
    · cases read
  · obtain ⟨inner, read, rfl⟩ := map_eq_ok.1 h
    exact ⟨attributes, vars, uniform_of_decodeGroups read⟩
  · cases h
    exact ⟨attributes, vars, groups⟩
termination_by (sizeOf value, 1)

theorem uniform_of_decodeGroups {j : Json} {groups : List FileGroup}
    (h : decodeGroups j = .ok groups) : ∀ g ∈ groups, g.Uniform := by
  match j with
  | .array items =>
    rw [decodeGroups] at h
    exact uniform_of_decodeAll h
  | .null | .bool _ | .int _ | .float _ | .text _ | .object _ =>
    rw [decodeGroups] at h
    · cases h
    · nofun
termination_by (sizeOf j, 0)

theorem uniform_of_decodeAll {items : List Json} {groups : List FileGroup}
    (h : decodeAll items = .ok groups) : ∀ g ∈ groups, g.Uniform := by
  match items with
  | [] =>
    rw [decodeAll] at h
    cases h
    exact fun _ mem => absurd mem List.not_mem_nil
  | item :: rest =>
    rw [decodeAll] at h
    obtain ⟨first, read, h⟩ := bind_eq_ok.1 h
    obtain ⟨others, readOthers, made⟩ := bind_eq_ok.1 h
    cases made
    exact List.forall_mem_cons.2 ⟨uniform_of_decode read, uniform_of_decodeAll readOthers⟩
termination_by (sizeOf items, 0)

end

/-- A uniform file is read back with its values settled. -/
theorem decode_settled {g : FileGroup} (uniform : g.Uniform) :
    decode g.toJson = .ok (g.mapValues AttributeValue.settled) :=
  decode_mapValues fun v mem =>
    AttributeValue.decode_mapScalars (uniform v mem) fun s _ => s.ofPlain_baseType

end FileGroup

end Decoding

theorem Group.uniform_exampleFile (d : Dataset) (unlimitedLength : Nat) :
    (d.exampleFile unlimitedLength).Uniform := by
  intro v mem
  rw [exampleFile_eq] at mem
  obtain ⟨c, rfl⟩ := mem_values_exampleNamed mem
  exact c.uniform_exampleValue

namespace FileGroup

/-- Uniform files, which are all that are read or made up, are read back with their values settled;
and an attribute object is read just if its type admits its value. -/
theorem decode_exactly :
    (∀ g : FileGroup, g.Uniform → decode g.toJson = .ok (g.mapValues AttributeValue.settled)) ∧
    (∀ j g, decode j = .ok g → g.Uniform) ∧
    (∀ (d : Dataset) unlimitedLength, (d.exampleFile unlimitedLength).Uniform) ∧
    ∀ members type value t, countName "type" members ≤ 1 ∧ countName "value" members ≤ 1 →
      members.lookup "type" = some type → BaseType.decode type = .ok t →
      members.lookup "value" = some value →
      ((∃ v, AttributeValue.decode (.object members) = .ok v) ↔ t.AdmitsAll value) :=
  ⟨fun _ => decode_settled, fun _ _ => uniform_of_decode, Group.uniform_exampleFile,
    fun _ _ _ _ => AttributeValue.exists_decode_iff⟩

/-- A file with a float that has no written form and with an array of small integers. -/
def gain (x : Double) : FileGroup :=
  ⟨"gain", .ofList [("factor", .scalar (.float64 x)),
    ("range", .array .int8 [.integer .int8 (-1) (by decide), .integer .int8 1 (by decide)])],
    [], [], []⟩

theorem decode_exactly_gain :
    (gain (.infinite true)).Uniform ∧
      decode (gain (.infinite true)).toJson = .ok (gain .nan) ∧
      ¬ ∃ v, AttributeValue.decode
        (.object [("type", .text "int8"), ("value", .array [.int 1, .int 200])]) = .ok v := by
  have uniform : (gain (.infinite true)).Uniform := by
    intro v mem
    have values : (gain (.infinite true)).values = [.scalar (.float64 (.infinite true)),
        .array .int8 [.integer .int8 (-1) (by decide), .integer .int8 1 (by decide)]] := rfl
    rw [values] at mem
    rcases List.mem_pair.1 mem with rfl | rfl
    · trivial
    · intro s isIn
      rcases List.mem_pair.1 isIn with rfl | rfl <;> rfl
  refine ⟨uniform, decode_exactly.1 _ uniform, ?_⟩
  rw [decode_exactly.2.2.2 _ _ _ .int8 (by decide) rfl rfl rfl]
  intro admitted
  exact absurd (admitted (.int 200) (by simp)) (by unfold BaseType.Admits; decide)

end FileGroup

end ProductSpec
