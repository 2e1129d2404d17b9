/-
  Datasets read out of their documents without any text in between. A float that is not finite
  is written as null, which no literal is read from; so a dataset is read as it is if all its
  floats are finite, and not at all otherwise.
-/
import ProductSpec.Proofs.Dataset.RoundTrip

namespace ProductSpec

open Number Json

/-- A failure for each float that a document cannot hold. -/
def floatErrors (floats : List Double) : List DecodeError :=
  (floats.filter fun x => !x.isFinite).map fun _ => .shape

theorem floatErrors_append (floats others : List Double) :
    floatErrors (floats ++ others) = floatErrors floats ++ floatErrors others := by
  rw [floatErrors, List.filter_append, List.map_append]
  rfl

theorem floatErrors_flatMap {α : Type} (floatsOf : α → List Double) (items : List α) :
    floatErrors (items.flatMap floatsOf) = items.flatMap fun a => floatErrors (floatsOf a) := by
  induction items with
  | nil => rfl
  | cons a rest ih => rw [List.flatMap_cons, floatErrors_append, ih, List.flatMap_cons]

theorem head?_floatErrors {floats : List Double} (h : ∃ x ∈ floats, x.isFinite = false) :
    (floatErrors floats).head? = some .shape := by
  obtain ⟨x, mem, infinite⟩ := h
  have isIn : x ∈ floats.filter fun x => !x.isFinite :=
    List.mem_filter.2 ⟨mem, by rw [infinite]; rfl⟩
  rw [floatErrors, List.head?_map, List.head?_eq_some_head (List.ne_nil_of_mem isIn)]
  rfl

theorem reports_decodeList {α β : Type} {decode : Json → Decoded β} {encode : α → Json}
    {floatsOf : α → List Double} {items : List α}
    (each : ∀ a ∈ items, Reports (decode (encode a)) (floatErrors (floatsOf a))) :
    Reports (decodeList decode (.array (items.map encode)))
      (floatErrors (items.flatMap floatsOf)) := by
  rw [floatErrors_flatMap, decodeList, List.mapM_map]
  exact Reports.mapM_of_mem each

namespace Literal

mutual

theorem reports_decode (l : Literal) : Reports (decode l.toJson) (floatErrors l.floats) := by
  match l with
  | int _ | text _ => rfl
  | float x =>
    rw [toJson, Json.ofDouble, floats, floatErrors]
    cases finite : x.isFinite <;> simp [finite, decode, Reports]
  | list items => exact (reports_decodeAll items).map list

theorem reports_decodeAll (items : List Literal) :
    Reports (decodeAll (toJsons items)) (floatErrors (floatsOfItems items)) := by
  match items with
  | [] => rfl
  | item :: rest =>
    rw [toJsons, decodeAll, floatsOfItems, floatErrors_append]
    exact (reports_decode item).bind fun first _ => (reports_decodeAll rest).bind_pure (first :: ·)

end

end Literal

theorem ConstraintKind.reports_decode (k : ConstraintKind) :
    Reports (decode k.toJson) (floatErrors k.floats) := by
  cases k with
  | literal l => exact l.reports_decode.map literal
  | placeholder p =>
    change Reports ((Placeholder.decode p.toJson).map placeholder) []
    rw [p.decode_toJson]
    rfl

theorem AttributeConstraint.reports_decode (c : AttributeConstraint) :
    Reports (decode c.toJson) (floatErrors c.floats) := by
  refine .after (record_object (.refl _) (by decide)) (.after (x := c.name) rfl ?_)
  exact c.kind.reports_decode.bind_pure (mk c.name)

theorem Variable.reports_decode (v : Variable) :
    Reports (decode v.toJson) (floatErrors v.floats) := by
  refine .after (record_object (.refl _) (by decide)) (.after (x := v.name) rfl ?_)
  refine .after v.dataType.decode_toJson (.after (decodeList_texts v.dimensions) ?_)
  have attributes := reports_decodeList fun (c : AttributeConstraint) (_ : c ∈ v.attributes) =>
    c.reports_decode
  rw [← List.append_nil (floatErrors _)]
  exact attributes.bind fun _ _ => .after v.info.decode_toJson rfl

namespace Group

theorem reports_decode (g : Group) : Reports (decode g.toJson) (floatErrors g.floats) := by
  induction g using induction with
  | step g ih =>
    obtain ⟨name, info, attributes, dimensions, vars, groups⟩ := g
    rw [toJson, toJsons_eq, floats_eq, floatErrors_append, floatErrors_append, List.append_assoc,
      decode]
    refine .after (record_object (.refl _) (by decide)) (.after (x := name) rfl ?_)
    refine .after info.decode_toJson ?_
    refine (reports_decodeList fun (c : AttributeConstraint) (_ : c ∈ attributes) =>
      c.reports_decode).bind fun _ _ => ?_
    have each : ∀ d ∈ dimensions, Dimension.decode d.toJson = .ok (id d) := fun d _ =>
      d.decode_toJson
    refine .after (decodeList_map each) ?_
    refine (reports_decodeList fun (v : Variable) (_ : v ∈ vars) => v.reports_decode).bind
      fun _ _ => ?_
    rw [groupsOfMembers_eq rfl]
    exact (reports_decodeList ih).bind_pure _

/-- A dataset is read out of its document as it is if its floats are finite, and not at all
otherwise. -/
theorem decode_toJson_cases (d : Dataset) :
    ((∀ x ∈ d.floats, x.isFinite = true) → decode d.toJson = .ok d) ∧
      ((∃ x ∈ d.floats, x.isFinite = false) → decode d.toJson = .error .shape) := by
  refine ⟨fun finite => ?_, fun infinite => ?_⟩
  · have document : d.toJson.mapFloats id = d.toJson :=
      (Json.mapFloats_eq_self_iff id _).2 fun _ _ => rfl
    have dataset : d.mapFloats id = d := (d.mapFloats_eq_self_iff id).2 fun _ _ => rfl
    have read := d.decode_toJson id finite
    rwa [document, dataset] at read
  · exact (d.reports_decode.iff.2 _).2 (head?_floatErrors infinite)

end Group

end ProductSpec
