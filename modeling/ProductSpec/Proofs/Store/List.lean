/-
  Stores that hold some releases and nothing else: whatever the order in which its directory is
  read, such a store lists the manifests of these releases, each once and in their order.
-/
import ProductSpec.Proofs.Names
import ProductSpec.Proofs.Store.Freeze
import ProductSpec.Proofs.Store.Load
import ProductSpec.Proofs.Version.Order

namespace ProductSpec

namespace Manifest

instance : Std.TransCmp order :=
  inferInstanceAs (Std.TransCmp (compareLex (compareOn version) (compareOn tag)))

theorem tag_eq_of_order {a b : Manifest} (h : a.order b = .eq) : a.tag = b.tag :=
  Std.LawfulEqOrd.eq_of_compare (Ordering.then_eq_eq.1 h).2

theorem isLE_or_isLE (a b : Manifest) : ((a.order b).isLE || (b.order a).isLE) = true := by
  have swapped : b.order a = (a.order b).swap := Std.OrientedCmp.eq_swap
  rw [swapped]
  cases a.order b <;> rfl

/-- Sorted manifests with different tags ascend. -/
theorem ascending_mergeSort {manifests : List Manifest} (tags : (manifests.map tag).Nodup) :
    (manifests.mergeSort fun a b => (a.order b).isLE).Pairwise fun a b => a.order b = .lt := by
  have trans : ∀ a b c : Manifest, (a.order b).isLE = true → (b.order c).isLE = true →
      (a.order c).isLE = true := fun a b c => Std.TransCmp.isLE_trans
  have sorted := List.pairwise_mergeSort trans isLE_or_isLE manifests
  have different : (manifests.mergeSort fun a b => (a.order b).isLE).Pairwise fun a b =>
      a.tag ≠ b.tag :=
    (List.pairwise_map.1 tags).perm (List.mergeSort_perm manifests _).symm fun unlike => unlike.symm
  refine sorted.imp₂ (fun a b below unlike => ?_) different
  cases order : a.order b with
  | lt => rfl
  | eq => exact absurd (tag_eq_of_order order) unlike
  | gt =>
    rw [order] at below
    cases below

end Manifest

/-- A release with the options with which it was added. -/
structure StoredRelease where
  options : StoreOptions
  release : Release

namespace StoredRelease

def name (k : StoredRelease) : String := k.release.dirName

def files (k : StoredRelease) : String → Option ByteArray := k.release.files k.options

def manifest (k : StoredRelease) : Manifest := k.release.manifest k.options.format

/-- Whether releases can be kept side by side. -/
structure Apart (kept : List StoredRelease) : Prop where
  regular : ∀ k ∈ kept, k.release.Regular
  names : (kept.map name).Nodup

theorem apart_cons {k : StoredRelease} {earlier : List StoredRelease} :
    Apart (k :: earlier) ↔
      k.release.Regular ∧ k.name ∉ earlier.map name ∧ Apart earlier := by
  constructor
  · rintro ⟨regular, names⟩
    obtain ⟨first, others⟩ := List.forall_mem_cons.1 regular
    obtain ⟨apart, names⟩ := List.nodup_cons.1 names
    exact ⟨first, apart, others, names⟩
  · rintro ⟨first, apart, others, names⟩
    exact ⟨List.forall_mem_cons.2 ⟨first, others⟩, List.nodup_cons.2 ⟨apart, names⟩⟩

theorem tagged {k : StoredRelease} (h : k.release.Regular) :
    Version.ofTag? k.release.tag = some k.release.version :=
  Version.ofTag?_of_ofCheckedTag? h.checked

theorem name_ne_latest {k : StoredRelease} (h : k.release.Regular) :
    k.name ≠ Store.latestName :=
  (Store.isReleaseName_iff.1 (Store.isReleaseName_dirName (tagged h))).2

end StoredRelease

namespace Shelf

open Store

/-- What is on a shelf after releases have been added, the last one first. -/
def holding : List StoredRelease → Shelf
  | [] => fun _ => none
  | k :: earlier => (holding earlier).add k.options k.release

variable {kept : List StoredRelease} {k : StoredRelease} {name : String}

theorem holding_latest (k : StoredRelease) (earlier : List StoredRelease) :
    holding (k :: earlier) latestName = some (.folder k.files) := by
  rw [holding, add, Function.update_self]
  rfl

theorem holding_of_notMem (notLatest : name ≠ latestName)
    (h : name ∉ kept.map StoredRelease.name) : holding kept name = none := by
  induction kept with
  | nil => rfl
  | cons k earlier ih =>
    obtain ⟨unlike, h⟩ := not_or.1 (List.mem_cons.not.1 h)
    rw [holding, add_of_ne unlike notLatest, ih h]

theorem holding_of_mem (h : StoredRelease.Apart kept) (mem : k ∈ kept) :
    holding kept k.name = some (.folder k.files) := by
  have notLatest := StoredRelease.name_ne_latest (h.regular k mem)
  induction kept with
  | nil => cases mem
  | cons first earlier ih =>
    obtain ⟨-, apart, h⟩ := StoredRelease.apart_cons.1 h
    rcases List.mem_cons.1 mem with rfl | mem
    · rw [holding, add, Function.update_of_ne notLatest]
      exact Function.update_self ..
    · have unlike : k.name ≠ first.name := fun same => apart (same ▸ List.mem_map_of_mem mem)
      rw [holding, add_of_ne unlike notLatest, ih h mem]

theorem atRest_holding (h : StoredRelease.Apart kept) : (holding kept).AtRest := by
  induction kept with
  | nil => exact ⟨fun _ _ => rfl, nofun⟩
  | cons k earlier ih =>
    obtain ⟨regular, -, h⟩ := StoredRelease.apart_cons.1 h
    exact (ih h).add (StoredRelease.tagged regular)

end Shelf

namespace Site.Shows

open FileAction Store

variable {site : Site} {w : World} {kept : List StoredRelease}
  {k : StoredRelease} {options : StoreOptions}

/-- The manifest of the release with a name. -/
def manifestAt? (kept : List StoredRelease) (name : String) : Option Manifest :=
  (kept.find? fun k => k.name == name).map StoredRelease.manifest

theorem manifestAt?_eq_some (h : StoredRelease.Apart kept) {name : String} {m : Manifest} :
    manifestAt? kept name = some m ↔ ∃ k ∈ kept, k.name = name ∧ k.manifest = m := by
  constructor
  · intro found
    obtain ⟨k, isFirst, rfl⟩ := Option.map_eq_some_iff.1 found
    exact ⟨k, List.mem_of_find?_eq_some isFirst, by simpa using List.find?_some isFirst, rfl⟩
  · rintro ⟨k, mem, rfl, rfl⟩
    rw [manifestAt?, find?_name h.names mem]
    rfl

theorem manifestsOf (options : StoreOptions) (h : site.Shows (Shelf.holding kept) w)
    (apart : StoredRelease.Apart kept) {listed : List (String × FileKind)}
    (real : ∀ e ∈ listed, ((Shelf.holding kept).shapeAt [e.1]).map FileShape.kind = some e.2) :
    Yields (Store.manifestsOf ⟨site.root, options⟩ listed) w
      (.ok ((listed.map Prod.fst).filterMap (manifestAt? kept))) w := by
  induction listed with
  | nil => exact yields_pure [] w
  | cons e rest ih =>
    obtain ⟨name, kind⟩ := e
    obtain ⟨first, real⟩ := List.forall_mem_cons.1 real
    have others := ih real
    -- A listed name is that of a release, or else `latest`, which is no name of a release.
    by_cases known : ∃ k ∈ kept, k.name = name
    · obtain ⟨k, mem, rfl⟩ := known
      have folder := Shelf.holding_of_mem apart mem
      have regular := apart.regular k mem
      have piece := isPieceName_dirName (StoredRelease.tagged regular)
      rw [Shelf.shapeAt, folder] at first
      cases first
      have found : manifestAt? kept k.name = some k.manifest :=
        (manifestAt?_eq_some apart).2 ⟨k, mem, rfl, rfl⟩
      have isRelease : isReleaseName k.name = true :=
        isReleaseName_dirName (StoredRelease.tagged regular)
      rw [List.map_cons, List.filterMap_cons_some found, Store.manifestsOf,
        if_pos ⟨rfl, isRelease⟩]
      exact (h.isFile_manifest piece folder regular).bind
        ((h.readManifest piece folder regular).bind (others.bind (yields_pure _ w)))
    · have notReleased : ¬ (kind = .directory ∧ isReleaseName name = true) := by
        rintro ⟨-, isRelease⟩
        have absent : name ∉ kept.map StoredRelease.name := fun mem => known (List.mem_map.1 mem)
        rw [Shelf.shapeAt, Shelf.holding_of_notMem (isReleaseName_iff.1 isRelease).2 absent]
          at first
        cases first
      have unknown : manifestAt? kept name = none := by
        refine Option.eq_none_iff_forall_ne_some.2 fun m found => ?_
        obtain ⟨k, mem, same, -⟩ := (manifestAt?_eq_some apart).1 found
        exact known ⟨k, mem, same⟩
      rw [List.map_cons, List.filterMap_cons_none unknown, Store.manifestsOf, if_neg notReleased]
      exact others

theorem nodup_tags (apart : StoredRelease.Apart kept) :
    ((kept.map StoredRelease.manifest).map Manifest.tag).Nodup := by
  refine List.Nodup.of_map Version.dirName ?_
  rw [List.map_map, List.map_map]
  exact apart.names

/-- Names that include those of all releases, each once, lead to the manifests of the releases. -/
theorem perm_manifests (apart : StoredRelease.Apart kept) {names : List String}
    (once : names.Nodup) (all : ∀ k ∈ kept, k.name ∈ names) :
    (names.filterMap (manifestAt? kept)).Perm (kept.map StoredRelease.manifest) := by
  have nodup : (names.filterMap (manifestAt? kept)).Nodup := by
    -- Two names with one manifest are one name: a manifest holds the tag it is stored under.
    refine once.filterMap fun name name' m found found' => ?_
    obtain ⟨k, -, rfl, form⟩ := (manifestAt?_eq_some apart).1 found
    obtain ⟨k', -, rfl, form'⟩ := (manifestAt?_eq_some apart).1 found'
    exact congrArg (fun m => Version.dirName m.tag) (form.trans form'.symm)
  rw [List.perm_ext_iff_of_nodup nodup (nodup_tags apart).of_map]
  intro m
  rw [List.mem_filterMap, List.mem_map]
  constructor
  · rintro ⟨name, -, found⟩
    obtain ⟨k, mem, -, form⟩ := (manifestAt?_eq_some apart).1 found
    exact ⟨k, mem, form⟩
  · rintro ⟨k, mem, rfl⟩
    exact ⟨k.name, all k mem, (manifestAt?_eq_some apart).2 ⟨k, mem, rfl, rfl⟩⟩

/-- The manifests of the releases are listed, each once and in their order. -/
theorem list (h : site.Shows (Shelf.holding kept) w) (apart : StoredRelease.Apart kept) :
    ∃ manifests, Yields (Store.list ⟨site.root, options⟩) w (.ok manifests) w ∧
      manifests.Perm (kept.map StoredRelease.manifest) ∧
        manifests.Pairwise fun a b => a.order b = .lt := by
  obtain ⟨listed, asked, once, real⟩ := h.list_root
  have found := h.manifestsOf options apart fun e mem => (real e).1 mem
  have all : ∀ k ∈ kept, k.name ∈ listed.map Prod.fst := by
    intro k mem
    have isListed : (k.name, FileKind.directory) ∈ listed := by
      rw [real, Shelf.shapeAt, Shelf.holding_of_mem apart mem]
      rfl
    exact List.mem_map_of_mem isListed
  have perm := perm_manifests apart once all
  refine ⟨_, ?_, (List.mergeSort_perm _ _).trans perm, Manifest.ascending_mergeSort
    ((perm.map Manifest.tag).nodup_iff.2 (nodup_tags apart))⟩
  have directory : Yields (FileAction.isDirectory site.root) w (.ok true) w :=
    yields_ofProgram h.isDirectory_root
  exact directory.bind (asked.bind (found.bind (yields_pure _ w)))

end Site.Shows

end ProductSpec
