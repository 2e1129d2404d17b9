/-
  Reading values out of documents that were made from them: records by their members, lists by
  their items. A document without floats is read exactly.
-/
import ProductSpec.Json.Decode
import ProductSpec.Proofs.Json.RoundTrip
import ProductSpec.Proofs.Outcome

namespace ProductSpec.Json

open Number

theorem mem_leavesOfItems {leaf : Json} {items : List Json} :
    leaf ∈ leavesOfItems items ↔ ∃ item ∈ items, leaf ∈ item.leaves := by
  induction items with
  | nil => simp [leavesOfItems]
  | cons item rest ih => simp [leavesOfItems, ih]

theorem mem_leavesOfMembers {leaf : Json} {members : List (String × Json)} :
    leaf ∈ leavesOfMembers members ↔ ∃ m ∈ members, leaf ∈ m.2.leaves := by
  induction members with
  | nil => simp [leavesOfMembers]
  | cons m rest ih => simp [leavesOfMembers, ih]

theorem mapFloatsOfItems_eq (f : Double → Double) (items : List Json) :
    mapFloatsOfItems f items = items.map (mapFloats f) := by
  induction items with
  | nil => rfl
  | cons item rest ih => rw [mapFloatsOfItems, ih, List.map_cons]

/-- Whether a leaf is read as itself wherever it stands. -/
def IsExact (leaf : Json) : Prop :=
  match leaf with
  | .int n => FitsWord n
  | .float _ => False
  | _ => True

theorem IsExact.isWritable {leaf : Json} (h : leaf.IsExact) : leaf.IsWritable := by
  cases leaf with
  | int n => exact h
  | float x => exact h.elim
  | _ => trivial

/-- A document without floats, whose integers are those of a word. -/
def Exact (j : Json) : Prop := ∀ leaf ∈ j.leaves, leaf.IsExact

namespace Exact

variable {j : Json}

theorem text (s : String) : (Json.text s).Exact := by simp [Exact, leaves, IsExact]

theorem bool (b : Bool) : (Json.bool b).Exact := by simp [Exact, leaves, IsExact]

theorem null : Json.null.Exact := by simp [Exact, leaves, IsExact]

theorem int {n : Int} (fits : FitsWord n) : (Json.int n).Exact := by
  simpa [Exact, leaves, IsExact] using fits

theorem word (n : UInt64) : (Json.ofNat n.toNat).Exact := by
  have below := n.toNat_lt
  exact int ⟨by omega, by omega⟩

theorem array_iff {items : List Json} :
    (Json.array items).Exact ↔ ∀ item ∈ items, item.Exact := by
  simp only [Exact, leaves, mem_leavesOfItems]
  exact ⟨fun h item mem leaf isIn => h leaf ⟨item, mem, isIn⟩,
    fun h leaf ⟨item, mem, isIn⟩ => h item mem leaf isIn⟩

theorem object_iff {members : List (String × Json)} :
    (Json.object members).Exact ↔ ∀ m ∈ members, m.2.Exact := by
  simp only [Exact, leaves, mem_leavesOfMembers]
  exact ⟨fun h m mem leaf isIn => h leaf ⟨m, mem, isIn⟩,
    fun h leaf ⟨m, mem, isIn⟩ => h m mem leaf isIn⟩

theorem texts (names : List String) : (Json.array (names.map .text)).Exact := by
  refine array_iff.2 fun item mem => ?_
  obtain ⟨s, -, rfl⟩ := List.mem_map.1 mem
  exact text s

theorem optional {name : String} {value : Option Json} (h : ∀ v ∈ value, v.Exact) :
    ∀ m ∈ Json.optional name value, m.2.Exact := by
  cases value with
  | none => nofun
  | some v =>
    intro m mem
    obtain rfl := List.mem_singleton.1 mem
    exact h v rfl

theorem writable (h : j.Exact) : ∀ leaf ∈ j.leaves, leaf.IsWritable := fun leaf mem =>
  (h leaf mem).isWritable

theorem notMem_floats (h : j.Exact) (x : Double) : .float x ∉ j.leaves := fun mem => h _ mem

theorem mapFloats_eq (h : j.Exact) (f : Double → Double) : j.mapFloats f = j :=
  (mapFloats_eq_self_iff f j).2 fun x mem => (h.notMem_floats x mem).elim

/-- Only its depth can keep such a document from being read. -/
theorem read?_write (h : j.Exact) (l : Layout) {j' : Json} :
    read? (write l j) = some j' ↔ j.depth ≤ depthLimit ∧ j' = j := by
  rw [read?_write_eq_some h.writable, h.mapFloats_eq]
  exact ⟨fun ⟨shallow, _, same⟩ => ⟨shallow, same⟩,
    fun ⟨shallow, same⟩ => ⟨shallow, fun x mem => (h.notMem_floats x mem).elim, same⟩⟩

end Exact

/-- A document that is made from values with floats: each leaf is exact or one of the floats, and
every finite one of these is there. -/
structure Carries (j : Json) (floats : List Double) : Prop where
  leaf : ∀ leaf ∈ j.leaves, leaf.IsExact ∨ ∃ x ∈ floats, x.isFinite = true ∧ leaf = .float x
  float : ∀ x ∈ floats, x.isFinite = true → .float x ∈ j.leaves

theorem Exact.carries {j : Json} (h : j.Exact) : j.Carries [] :=
  ⟨fun _ mem => .inl (h _ mem), nofun⟩

namespace Carries

variable {j value : Json} {floats others : List Double}

theorem float_of_finite {x : Double} (finite : x.isFinite = true) : (Json.float x).Carries [x] := by
  refine ⟨fun leaf mem => .inr ⟨x, List.mem_singleton_self x, finite, ?_⟩, fun y mem _ => ?_⟩
  · exact List.mem_singleton.1 mem
  · rw [List.mem_singleton.1 mem]
    exact List.mem_singleton_self _

theorem emptyArray : (Json.array []).Carries [] := ⟨nofun, nofun⟩

theorem emptyObject : (Json.object []).Carries [] := ⟨nofun, nofun⟩

/-- A float that is not finite is written as null. -/
theorem ofDouble (x : Double) : (Json.ofDouble x).Carries [x] := by
  unfold Json.ofDouble
  split
  · next finite => exact float_of_finite finite
  · next infinite =>
    refine ⟨fun leaf mem => .inl (Exact.null leaf mem), fun y mem finite => ?_⟩
    rw [List.mem_singleton.1 mem] at finite
    exact absurd finite infinite

/-- What a document carries that has the leaves of two others. -/
theorem append {whole rest : Json} (first : value.Carries floats) (second : rest.Carries others)
    (leaves_eq : whole.leaves = value.leaves ++ rest.leaves) :
    whole.Carries (floats ++ others) := by
  constructor
  · intro leaf mem
    rw [leaves_eq] at mem
    rcases List.mem_append.1 mem with mem | mem
    · refine (first.leaf leaf mem).imp_right fun ⟨x, mem, rest⟩ => ⟨x, ?_, rest⟩
      exact List.mem_append_left _ mem
    · refine (second.leaf leaf mem).imp_right fun ⟨x, mem, rest⟩ => ⟨x, ?_, rest⟩
      exact List.mem_append_right _ mem
  · intro x mem finite
    rw [leaves_eq, List.mem_append]
    exact (List.mem_append.1 mem).imp (first.float x · finite) (second.float x · finite)

theorem item {items : List Json} (first : value.Carries floats)
    (rest : (Json.array items).Carries others) :
    (Json.array (value :: items)).Carries (floats ++ others) :=
  append first rest rfl

theorem member (name : String) {members : List (String × Json)} (first : value.Carries floats)
    (rest : (Json.object members).Carries others) :
    (Json.object ((name, value) :: members)).Carries (floats ++ others) :=
  append first rest rfl

theorem array {α : Type} {encode : α → Json} {floatsOf : α → List Double} {items : List α}
    (each : ∀ a ∈ items, (encode a).Carries (floatsOf a)) :
    (Json.array (items.map encode)).Carries (items.flatMap floatsOf) := by
  induction items with
  | nil => exact emptyArray
  | cons a rest ih =>
    obtain ⟨first, others⟩ := List.forall_mem_cons.1 each
    exact item first (ih others)

theorem members {α : Type} {encode : α → Json} {floatsOf : α → List Double}
    {entries : List (String × α)} (each : ∀ e ∈ entries, (encode e.2).Carries (floatsOf e.2)) :
    (Json.object (entries.map fun e => (e.1, encode e.2))).Carries
      ((entries.map Prod.snd).flatMap floatsOf) := by
  induction entries with
  | nil => exact emptyObject
  | cons e rest ih =>
    obtain ⟨first, others⟩ := List.forall_mem_cons.1 each
    exact member e.1 first (ih others)

theorem ofMap {α : Type} {encode : α → Json} {floatsOf : α → List Double} {m : NameMap α}
    (each : ∀ a ∈ m.values, (encode a).Carries (floatsOf a)) :
    (Json.ofMap encode m).Carries (m.values.flatMap floatsOf) :=
  members fun e mem => each e.2 (List.mem_map_of_mem mem)

theorem writable (h : j.Carries floats) : ∀ leaf ∈ j.leaves, leaf.IsWritable := by
  intro leaf mem
  rcases h.leaf leaf mem with exact | ⟨x, -, finite, rfl⟩
  · exact exact.isWritable
  · exact finite

theorem float_mem_iff (h : j.Carries floats) (finite : ∀ x ∈ floats, x.isFinite = true)
    (x : Double) : .float x ∈ j.leaves ↔ x ∈ floats := by
  refine ⟨fun mem => ?_, fun mem => h.float x mem (finite x mem)⟩
  rcases h.leaf _ mem with exact | ⟨y, isIn, -, same⟩
  · exact exact.elim
  · rwa [Json.float.inj same]

end Carries

section Records

variable {α β : Type}

theorem countName_le_one {name : String} {members : List (String × Json)}
    (h : (members.map Prod.fst).Nodup) : countName name members ≤ 1 := by
  have counted : countName name members = (members.map Prod.fst).count name := by
    rw [List.count_eq_countP, List.countP_map]
    rfl
  rw [counted]
  exact List.nodup_iff_count.1 h name

/-- A record whose members are some of those it may have, in their order. -/
theorem record_object {names : List String} {members : List (String × Json)}
    (sub : (members.map Prod.fst).Sublist names) (nodup : names.Nodup) :
    record names (.object members) = .ok ⟨members, false⟩ := by
  rw [record, if_neg]
  intro twice
  obtain ⟨name, -, h⟩ := List.any_eq_true.1 twice
  exact absurd (of_decide_eq_true h) (Nat.not_lt.2 (countName_le_one (nodup.sublist sub)))

theorem map_fst_optional_sublist (name : String) (value : Option Json) :
    ((Json.optional name value).map Prod.fst).Sublist [name] := by
  cases value with
  | none => exact List.nil_sublist _
  | some v => exact List.Sublist.refl _

theorem lookup_optional (name other : String) (value : Option Json) :
    (Json.optional other value).lookup name = if name = other then value else none := by
  cases value with
  | none => simp [Json.optional]
  | some v =>
    by_cases same : name = other
    · simp [Json.optional, same]
    · have unlike : (name == other) = false := beq_false_of_ne same
      simp [Json.optional, List.lookup_cons, same, unlike]

theorem optional_text {r : Record} {name : String} {text : Option String}
    (h : r.members.lookup name = text.map .text) : r.optional name decodeText = .ok text := by
  rw [Record.optional, h]
  cases text <;> rfl

theorem decodeList_map {decode : Json → Decoded β} {encode : α → Json} {make : α → β}
    {items : List α} (each : ∀ a ∈ items, decode (encode a) = .ok (make a)) :
    decodeList decode (.array (items.map encode)) = .ok (items.map make) := by
  rw [decodeList, mapM_eq_ok, List.forall₂_map_left_iff, List.forall₂_map_right_iff,
    List.forall₂_same]
  exact each

theorem decodeList_texts (names : List String) :
    decodeList decodeText (.array (names.map .text)) = .ok names := by
  have each : ∀ s ∈ names, decodeText (.text s) = .ok (id s) := fun _ _ => rfl
  rw [decodeList_map each, List.map_id]

theorem decodeWord_toNat (n : UInt64) : decodeWord (.ofNat n.toNat) = .ok n := by
  have fits : fitsNat64 n.toNat = true := decide_eq_true (Nat.le_of_lt_succ n.toNat_lt)
  have read : decodeNat (.ofNat n.toNat) = .ok n.toNat := if_pos fits
  rw [decodeWord, read]
  exact congrArg Except.ok UInt64.ofNat_toNat

end Records

end ProductSpec.Json
