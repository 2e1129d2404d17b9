/-
  Manifests read back out of documents. There are no floats in a manifest and it is not deep, so
  it is read exactly as it was written.
-/
import ProductSpec.Proofs.JsonSchema.Document
import ProductSpec.Proofs.Timestamp.Text
import ProductSpec.Proofs.Version.Text
import ProductSpec.Store.Manifest

namespace ProductSpec

open Json

theorem Json.depthOfMembers_le {members : List (String × Json)} {k : Nat}
    (h : ∀ m ∈ members, m.2.depth ≤ k) : depthOfMembers members ≤ k := by
  induction members with
  | nil => exact Nat.zero_le k
  | cons m rest ih =>
    obtain ⟨first, others⟩ := List.forall_mem_cons.1 h
    exact Nat.max_le.2 ⟨first, ih others⟩

theorem Json.depth_object_le {members : List (String × Json)} {k : Nat}
    (h : ∀ m ∈ members, m.2.depth ≤ k) : (Json.object members).depth ≤ 1 + k :=
  Nat.add_le_add_left (depthOfMembers_le h) 1

namespace ProductEntry

theorem exact_toJson (e : ProductEntry) : e.toJson.Exact := by
  refine Exact.object_iff.2 fun m mem => ?_
  simp only [List.mem_cons, List.not_mem_nil, or_false] at mem
  rcases mem with rfl | rfl | rfl
  · exact .text _
  · exact .text _
  · exact .word _

theorem decode_toJson (e : ProductEntry) : decode e.toJson = .ok e := by
  refine bind_eq_ok.2 ⟨_, record_object (.refl _) (by decide), ?_⟩
  refine bind_eq_ok.2 ⟨e.file, rfl, bind_eq_ok.2 ⟨e.checksum, rfl, ?_⟩⟩
  exact bind_eq_ok.2 ⟨e.nodeCount, decodeWord_toNat e.nodeCount, rfl⟩

end ProductEntry

theorem decodeMap_ofMap {α : Type} {decode : Json → Decoded α} {encode : α → Json}
    (each : ∀ a, decode (encode a) = .ok a) (m : NameMap α) :
    decodeMap decode (ofMap encode m) = .ok m := by
  have entries : (m.mapValues encode).toList.mapM (fun e => do
      return (e.1, ← decode e.2)) = .ok m.entries := by
    rw [mapM_eq_ok, NameMap.toList, NameMap.mapValues, List.forall₂_map_left_iff, List.forall₂_same]
    intro e _
    exact bind_eq_ok.2 ⟨e.2, each e.2, rfl⟩
  refine bind_eq_ok.2 ⟨m.entries, entries, ?_⟩
  rw [NameMap.ofList_entries]
  rfl

theorem decodeWith_text {α : Type} {read? : String → Option α} {s : String} {a : α}
    (h : read? s = some a) : decodeWith read? (.text s) = .ok a := by
  refine bind_eq_ok.2 ⟨s, rfl, ?_⟩
  rw [h]
  rfl

namespace Manifest

theorem exact_toJson (m : Manifest) : m.toJson.Exact := by
  refine Exact.object_iff.2 fun member mem => ?_
  simp only [List.mem_cons, List.not_mem_nil, or_false] at mem
  rcases mem with rfl | rfl | rfl | rfl | rfl
  · exact .text _
  · exact .text _
  · exact .text _
  · exact .ofMap fun e _ => e.2.exact_toJson
  · exact .text _

theorem depth_toJson_le (m : Manifest) : m.toJson.depth ≤ 3 := by
  have products : (ofMap ProductEntry.toJson m.products).depth ≤ 2 := by
    refine depth_object_le (k := 1) fun member mem => ?_
    obtain ⟨e, -, rfl⟩ := List.mem_map.1 mem
    exact Nat.le_refl 1
  refine depth_object_le (k := 2) fun member mem => ?_
  simp only [List.mem_cons, List.not_mem_nil, or_false] at mem
  rcases mem with rfl | rfl | rfl | rfl | rfl
  · exact Nat.zero_le 2
  · exact Nat.zero_le 2
  · exact Nat.zero_le 2
  · exact products
  · exact Nat.zero_le 2

theorem decode_toJson {m : Manifest} (version : m.version.Valid)
    (time : m.createdAt.isValid = true) : decode m.toJson = .ok m := by
  refine bind_eq_ok.2 ⟨_, record_object (.refl _) (by decide), bind_eq_ok.2 ⟨m.tag, rfl, ?_⟩⟩
  refine bind_eq_ok.2 ⟨m.version, decodeWith_text (Version.read?_text version), ?_⟩
  refine bind_eq_ok.2 ⟨m.createdAt, decodeWith_text (Timestamp.read?_text time), ?_⟩
  refine bind_eq_ok.2 ⟨m.products, decodeMap_ofMap ProductEntry.decode_toJson m.products, ?_⟩
  exact bind_eq_ok.2 ⟨m.jsonSchema, rfl, rfl⟩

/-- A manifest is read back out of its document. -/
theorem decodeDocument_write {m : Manifest} (version : m.version.Valid)
    (time : m.createdAt.isValid = true) (l : Layout) :
    decodeDocument decode (write l m.toJson) = some m := by
  have shallow : m.toJson.depth ≤ depthLimit := Nat.le_trans m.depth_toJson_le (by decide)
  rw [decodeDocument, (m.exact_toJson.read?_write l).2 ⟨shallow, rfl⟩]
  change (decode m.toJson).toOption = _
  rw [decode_toJson version time]
  rfl

end Manifest

end ProductSpec
