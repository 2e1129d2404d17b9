/-
  Attributes read back out of documents. Reading changes nothing but the float literals, and these
  as the numbers of the document have changed.
-/
import ProductSpec.Attribute.Codec
import ProductSpec.Proofs.Json.Decode

namespace ProductSpec

open Number Json

namespace Literal

mutual

/-- The floats in a literal. -/
def floats : Literal → List Double
  | float x => [x]
  | list items => floatsOfItems items
  | _ => []

def floatsOfItems : List Literal → List Double
  | [] => []
  | item :: rest => floats item ++ floatsOfItems rest

end

theorem mem_floatsOfItems {x : Double} {items : List Literal} :
    x ∈ floatsOfItems items ↔ ∃ item ∈ items, x ∈ item.floats := by
  induction items with
  | nil => simp [floatsOfItems]
  | cons item rest ih => simp [floatsOfItems, ih]

mutual

/-- The literal with other floats. -/
def mapFloats (f : Double → Double) : Literal → Literal
  | float x => float (f x)
  | list items => list (mapFloatsOfItems f items)
  | other => other

def mapFloatsOfItems (f : Double → Double) : List Literal → List Literal
  | [] => []
  | item :: rest => mapFloats f item :: mapFloatsOfItems f rest

end

mutual

theorem mapFloats_eq_self_iff (f : Double → Double) (l : Literal) :
    l.mapFloats f = l ↔ ∀ x ∈ l.floats, f x = x := by
  match l with
  | int _ | text _ => simp [mapFloats, floats]
  | float x => simp [mapFloats, floats]
  | list items => rw [mapFloats, floats, list.injEq, mapFloatsOfItems_eq_self_iff f items]

theorem mapFloatsOfItems_eq_self_iff (f : Double → Double) (items : List Literal) :
    mapFloatsOfItems f items = items ↔ ∀ x ∈ floatsOfItems items, f x = x := by
  match items with
  | [] => simp [mapFloatsOfItems, floatsOfItems]
  | item :: rest =>
    rw [mapFloatsOfItems, List.cons.injEq, mapFloats_eq_self_iff f item,
      mapFloatsOfItems_eq_self_iff f rest]
    simp only [floatsOfItems, List.mem_append, or_imp, forall_and]

end

mutual

/-- A finite literal is read back with the floats that the document then has. -/
theorem decode_toJson (f : Double → Double) (l : Literal)
    (finite : ∀ x ∈ l.floats, x.isFinite = true) :
    decode (l.toJson.mapFloats f) = .ok (l.mapFloats f) := by
  match l with
  | int n =>
    have made : ofInt n.toInt = int n := by
      rw [ofInt, if_pos (int64_holds n), Int64.ofInt_toInt]
    exact congrArg Except.ok made
  | float x =>
    have form : (float x).toJson = .float x := if_pos (finite x (List.mem_singleton_self x))
    rw [form]
    rfl
  | text _ => rfl
  | list items =>
    rw [toJson, Json.mapFloats, decode, decodeAll_toJsons f items finite]
    rfl

theorem decodeAll_toJsons (f : Double → Double) (items : List Literal)
    (finite : ∀ x ∈ floatsOfItems items, x.isFinite = true) :
    decodeAll (Json.mapFloatsOfItems f (toJsons items)) = .ok (mapFloatsOfItems f items) := by
  match items with
  | [] => rfl
  | item :: rest =>
    obtain ⟨first, others⟩ := List.forall_mem_append.1 finite
    rw [toJsons, Json.mapFloatsOfItems, decodeAll, decode_toJson f item first,
      decodeAll_toJsons f rest others]
    rfl

end

mutual

theorem carries_toJson (l : Literal) : l.toJson.Carries l.floats := by
  match l with
  | int n => exact (Exact.int ⟨n.le_toInt, by have := n.toInt_lt; omega⟩).carries
  | float x => exact .ofDouble x
  | text s => exact (Exact.text s).carries
  | list items => exact carries_toJsons items

theorem carries_toJsons (items : List Literal) :
    (Json.array (toJsons items)).Carries (floatsOfItems items) := by
  match items with
  | [] => exact .emptyArray
  | item :: rest => exact .item (carries_toJson item) (carries_toJsons rest)

end

end Literal

theorem BaseType.decode_toJson (t : BaseType) : BaseType.decode t.toJson = .ok t := by
  cases t <;> rfl

namespace Placeholder

theorem exact_toJson (p : Placeholder) : p.toJson.Exact := by
  refine Exact.object_iff.2 fun m mem => ?_
  simp only [List.mem_cons, List.not_mem_nil, or_false] at mem
  rcases mem with rfl | rfl | rfl | rfl
  · exact .text _
  · exact .bool _
  · exact .bool _
  · exact .bool _

theorem decode_toJson (p : Placeholder) : decode p.toJson = .ok p := by
  refine bind_eq_ok.2 ⟨_, record_object (.refl _) (by decide), ?_⟩
  refine bind_eq_ok.2 ⟨p.baseType, p.baseType.decode_toJson, ?_⟩
  exact bind_eq_ok.2 ⟨p.isArray, rfl, bind_eq_ok.2 ⟨p.required, rfl, rfl⟩⟩

end Placeholder

namespace ConstraintKind

def floats : ConstraintKind → List Double
  | literal l => l.floats
  | placeholder _ => []

def mapFloats (f : Double → Double) : ConstraintKind → ConstraintKind
  | literal l => literal (l.mapFloats f)
  | placeholder p => placeholder p

theorem mapFloats_eq_self_iff (f : Double → Double) (k : ConstraintKind) :
    k.mapFloats f = k ↔ ∀ x ∈ k.floats, f x = x := by
  cases k with
  | literal l => rw [mapFloats, floats, literal.injEq, Literal.mapFloats_eq_self_iff]
  | placeholder p => simp [mapFloats, floats]

theorem carries_toJson (k : ConstraintKind) : k.toJson.Carries k.floats := by
  cases k with
  | literal l =>
    have both := Carries.member "literal" l.carries_toJson .emptyObject
    rwa [List.append_nil] at both
  | placeholder p => exact Carries.member "placeholder" p.exact_toJson.carries .emptyObject

theorem decode_toJson (f : Double → Double) (k : ConstraintKind)
    (finite : ∀ x ∈ k.floats, x.isFinite = true) :
    decode (k.toJson.mapFloats f) = .ok (k.mapFloats f) := by
  cases k with
  | literal l =>
    change (Literal.decode (l.toJson.mapFloats f)).map literal = _
    rw [l.decode_toJson f finite]
    rfl
  | placeholder p =>
    change (Placeholder.decode (p.toJson.mapFloats f)).map placeholder = _
    rw [p.exact_toJson.mapFloats_eq, p.decode_toJson]
    rfl

end ConstraintKind

namespace AttributeConstraint

def floats (c : AttributeConstraint) : List Double := c.kind.floats

def mapFloats (f : Double → Double) (c : AttributeConstraint) : AttributeConstraint :=
  ⟨c.name, c.kind.mapFloats f⟩

theorem mapFloats_eq_self_iff (f : Double → Double) (c : AttributeConstraint) :
    c.mapFloats f = c ↔ ∀ x ∈ c.floats, f x = x := by
  rw [floats, ← ConstraintKind.mapFloats_eq_self_iff]
  exact ⟨congrArg kind, fun h => congrArg (mk c.name) h⟩

theorem carries_toJson (c : AttributeConstraint) : c.toJson.Carries c.floats := by
  have both := Carries.member "kind" c.kind.carries_toJson .emptyObject
  rw [List.append_nil] at both
  exact Carries.member "name" (Exact.text c.name).carries both

theorem decode_toJson (f : Double → Double) (c : AttributeConstraint)
    (finite : ∀ x ∈ c.floats, x.isFinite = true) :
    decode (c.toJson.mapFloats f) = .ok (c.mapFloats f) := by
  have form : c.toJson.mapFloats f =
      .object [("name", .text c.name), ("kind", c.kind.toJson.mapFloats f)] := rfl
  rw [form]
  refine bind_eq_ok.2 ⟨_, record_object (.refl _) (by decide), ?_⟩
  refine bind_eq_ok.2 ⟨c.name, rfl, bind_eq_ok.2 ⟨c.kind.mapFloats f, ?_, rfl⟩⟩
  exact c.kind.decode_toJson f finite

end AttributeConstraint

end ProductSpec
