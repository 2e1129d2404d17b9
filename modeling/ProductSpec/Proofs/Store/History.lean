/-
  The history of a store: whatever is added in whatever order, the store holds the releases that
  were taken, a tag that is not used is always taken, and all releases are listed. A release is
  loaded as it was made if its documents are read back as they were written; this is all that can
  keep it from being so.
-/
import ProductSpec.Proofs.File.Directory
import ProductSpec.Proofs.Store.List

namespace ProductSpec

open FileAction

/-- A directory that nobody has put anything into. It may not be there yet, if it can be created. -/
structure Fresh (root : FilePath) (w : World) : Prop where
  noFault : w.fault = none
  created : ∃ w' place, Yields (createDirectories root) w (.ok ()) w' ∧
    w'.tree.place w'.directory root = .ok place ∧ w'.tree.get? place = some .directory ∧
      ∀ rest, rest ≠ [] → w'.tree.entriesAt (place ++ rest) = []

namespace Fresh

variable {root : FilePath} {w w' : World}

theorem unchanged (h : Fresh root w) (later : w.Unchanged w') : Fresh root w' where
  noFault := later.fault.trans h.noFault
  created := by
    obtain ⟨w₁, place, created, placed, found, empty⟩ := h.created
    obtain ⟨w₁', created', -, same⟩ := created.createDirectories_unchanged h.noFault later
    refine ⟨w₁', place, created', (same.place_eq root).trans placed, (same.same place).trans found,
      fun rest filled => ?_⟩
    rw [← List.perm_nil, ← empty rest filled]
    exact same.entriesAt _

/-- A directory that is not there, while the one around it is. -/
theorem of_absent {place : FilePlace} (noFault : w.fault = none) (written : root.pieces ≠ [])
    (placed : w.tree.place w.directory root = .ok place) (filled : place ≠ [])
    (absent : ∀ rest, w.tree.entriesAt (place ++ rest) = []) : Fresh root w where
  noFault := noFault
  created := by
    have free : w.tree.get? place = none :=
      (FileTree.get?_eq_none filled).2 (by rw [← List.append_nil place, absent])
    obtain ⟨notEmpty, noZero, way⟩ := FileTree.place_eq_ok.1 placed
    refine ⟨_, place, yields_createDirectories_of_free noFault written placed free, ?_, ?_,
      fun rest below => ?_⟩
    · exact FileTree.place_eq_ok.2 ⟨notEmpty, noZero, FileTree.walk_set filled free way⟩
    · rw [FileTree.get?_set filled, if_pos rfl]
    · rw [FileTree.entriesAt_set, if_neg (by simpa using below), absent]

/-- A directory that is there and empty. -/
theorem of_empty {place : FilePlace} (noFault : w.fault = none) (written : root.pieces ≠ [])
    (placed : w.tree.place w.directory root = .ok place)
    (found : w.tree.get? place = some .directory)
    (empty : ∀ rest, rest ≠ [] → w.tree.entriesAt (place ++ rest) = []) : Fresh root w where
  noFault := noFault
  created := ⟨w, place, yields_createDirectories noFault written placed found, placed, found, empty⟩

/-- The directory is created if it is not there, and nothing is in it then. -/
theorem exists_shows (h : Fresh root w) (written : root.pieces ≠ []) :
    ∃ (site : Site) (w₁ : World), site.root = root ∧
      Yields (createDirectories root) w (.ok ()) w₁ ∧ site.Shows (.holding []) w₁ := by
  obtain ⟨w₁, place, created, placed, found, empty⟩ := h.created
  obtain ⟨w₁', created', noFault, -⟩ := created.createDirectories_unchanged h.noFault (.refl w)
  have bare : ∀ rest, rest ≠ [] → w₁.tree.get? (place ++ rest) = none := fun rest filled =>
    (FileTree.get?_eq_none (List.append_ne_nil_of_right_ne_nil _ filled)).2 (empty rest filled)
  -- The tree around the directory is remembered as it is once the directory is there.
  let site : Site := ⟨root, w₁.directory, place, w₁.tree, written, placed, found, bare⟩
  refine ⟨site, w₁, rfl, created, noFault, rfl, fun q _ => rfl, fun rest filled => ?_⟩
  obtain ⟨name, rest, rfl⟩ := List.exists_cons_of_ne_nil filled
  rw [empty (name :: rest) filled]
  rfl

end Fresh

theorem Site.Shows.unchanged {site : Site} {shelf : Shelf} {w w' : World}
    (h : site.Shows shelf w) (later : w.Unchanged w') : site.Shows shelf w' where
  noFault := later.fault.trans h.noFault
  directory := later.directory.trans h.directory
  outside q apart := (later.same q).trans (h.outside q apart)
  inside rest filled := by
    have old := h.inside rest filled
    have perm := (later.entriesAt (site.place ++ rest)).map FileEntry.shape
    rw [old] at perm
    cases item : shelf.shapeAt rest with
    | none =>
      rw [item] at perm
      exact List.perm_nil.1 perm
    | some shape =>
      rw [item] at perm
      exact List.perm_singleton.1 perm

/-- A call that adds a release. -/
structure FreezeCall where
  options : StoreOptions
  products : NameMap Dataset
  tag : String

/-- Calls with their results, the last one first. -/
abbrev History := List (FreezeCall × Except Fault Release)

/-- The releases that calls have added, the last one first. -/
def History.stored : History → List StoredRelease
  | [] => []
  | (call, .ok r) :: earlier => ⟨call.options, r⟩ :: stored earlier
  | (_, .error _) :: earlier => stored earlier

/-- What the calls of one writer come to, beginning in a world. Between the calls time passes, and
directories may be listed in another order. -/
inductive Run (root : FilePath) (start : World) : History → World → Prop
  | start : Run root start [] start
  | wait {history : History} {w w' : World} (run : Run root start history w)
      (later : w.Unchanged w') : Run root start history w'
  | call {history : History} {w w' : World} {call : FreezeCall} {result : Except Fault Release}
      (run : Run root start history w)
      (yields : Yields (Store.freeze ⟨root, call.options⟩ call.products call.tag) w result w') :
      Run root start ((call, result) :: history) w'

/-- What a call has to come to when some releases are there. -/
inductive Answers (kept : List StoredRelease) (call : FreezeCall) : Except Fault Release → Prop
  | refused (invalid : Version.ofCheckedTag? call.tag = none) :
      Answers kept call (.error (.invalidTag call.tag))
  | taken {v : Version} (valid : Version.ofCheckedTag? call.tag = some v)
      (used : Version.dirName call.tag ∈ kept.map StoredRelease.name) :
      Answers kept call (.error (.versionExists call.tag))
  | added {now : Int} {r : Release}
      (made : Release.make? call.tag call.products (.ofClock now) = some r)
      (free : Version.dirName call.tag ∉ kept.map StoredRelease.name) : Answers kept call (.ok r)

namespace Answers

variable {kept : List StoredRelease} {call : FreezeCall} {result : Except Fault Release}

theorem exists_eq_ok_iff (h : Answers kept call result) :
    (∃ r, result = .ok r) ↔ (Version.ofCheckedTag? call.tag).isSome = true ∧
      ∀ k ∈ kept, k.release.dirName ≠ Version.dirName call.tag := by
  cases h with
  | refused invalid => simp [invalid]
  | taken valid used =>
    obtain ⟨k, mem, same⟩ := List.mem_map.1 used
    exact ⟨nofun, fun ⟨_, unused⟩ => absurd same (unused k mem)⟩
  | added made free =>
    obtain ⟨v, checked, -⟩ := Release.make?_eq_some.1 made
    refine ⟨fun _ => ⟨by rw [checked]; rfl, fun k mem same => free ?_⟩, fun _ => ⟨_, rfl⟩⟩
    exact List.mem_map.2 ⟨k, mem, same⟩

theorem make? {r : Release} (h : Answers kept call (.ok r)) :
    ∃ now, Release.make? call.tag call.products now = some r := by
  cases h with
  | added made free => exact ⟨_, made⟩

end Answers

/-- A call with products that have plain names and finite floats. -/
structure FreezeCall.Regular (call : FreezeCall) : Prop where
  plain : ∀ e ∈ call.products.entries, IsPlainName e.1
  finite : ∀ e ∈ call.products.entries, ∀ x ∈ e.2.floats, x.isFinite = true

theorem FreezeCall.Regular.release {call : FreezeCall} (h : call.Regular) {now : Int} {r : Release}
    (made : Release.make? call.tag call.products (.ofClock now) = some r) : r.Regular := by
  obtain ⟨v, checked, rfl⟩ := Release.make?_eq_some.1 made
  exact ⟨checked, Timestamp.isValid_ofClock now, rfl, h.plain, h.finite⟩

/-- A store in which just some releases are kept, while nobody is at work. -/
inductive Keeps (root : FilePath) (w : World) : List StoredRelease → Prop
  | fresh (isFresh : Fresh root w) : Keeps root w []
  | shelf {kept : List StoredRelease} {site : Site} (isRoot : site.root = root)
      (holds : site.Shows (.holding kept) w) : Keeps root w kept

namespace Keeps

variable {root : FilePath} {w w' : World} {kept : List StoredRelease} {k : StoredRelease}
  {options : StoreOptions}

theorem unchanged (h : Keeps root w kept) (later : w.Unchanged w') : Keeps root w' kept := by
  cases h with
  | fresh isFresh => exact .fresh (isFresh.unchanged later)
  | shelf isRoot holds => exact .shelf isRoot (holds.unchanged later)

theorem exists_shows (h : Keeps root w kept) (written : root.pieces ≠ []) :
    ∃ (site : Site) (w₁ : World), site.root = root ∧
      Yields (createDirectories root) w (.ok ()) w₁ ∧ site.Shows (.holding kept) w₁ := by
  cases h with
  | fresh isFresh => exact isFresh.exists_shows written
  | shelf isRoot holds =>
    subst isRoot
    exact ⟨_, w, rfl, holds.createDirectories_root, holds⟩

/-- What one call comes to. -/
theorem freeze {history : History} {call : FreezeCall} {result : Except Fault Release}
    (h : Keeps root w history.stored) (written : root.pieces ≠ [])
    (apart : StoredRelease.Apart history.stored) (regular : call.Regular)
    (yields : Yields (Store.freeze ⟨root, call.options⟩ call.products call.tag) w result w') :
    Answers history.stored call result ∧
      Keeps root w' (History.stored ((call, result) :: history)) ∧
        StoredRelease.Apart (History.stored ((call, result) :: history)) := by
  cases checked : Version.ofCheckedTag? call.tag with
  | none =>
    have refused : Yields (Store.freeze ⟨root, call.options⟩ call.products call.tag) w
        (.error (.invalidTag call.tag)) w := by
      unfold Store.freeze
      rw [checked]
      rfl
    obtain ⟨rfl, rfl⟩ := yields.unique refused
    exact ⟨.refused checked, h, apart⟩
  | some v =>
    have tagged := Version.ofTag?_of_ofCheckedTag? checked
    have notLatest := (Store.isReleaseName_iff.1 (Store.isReleaseName_dirName tagged)).2
    obtain ⟨site, w₁, rfl, created, holds⟩ := h.exists_shows written
    -- The directory is there from here on, and the tag decides what comes of the call.
    by_cases used : Version.dirName call.tag ∈ history.stored.map StoredRelease.name
    · obtain ⟨k, mem, same⟩ := List.mem_map.1 used
      have folder := Shelf.holding_of_mem apart mem
      rw [same] at folder
      obtain ⟨rfl, rfl⟩ := yields.unique (Site.Shows.freeze_of_taken created holds checked folder)
      exact ⟨.taken checked used, .shelf rfl holds, apart⟩
    · have free := Shelf.holding_of_notMem notLatest used
      obtain ⟨now, r, w₂, made, added, holds'⟩ := Site.Shows.freeze_of_free created holds
        (Shelf.atRest_holding apart) checked free regular.plain
      obtain ⟨rfl, rfl⟩ := yields.unique added
      refine ⟨.added made used, .shelf rfl holds', StoredRelease.apart_cons.2
        ⟨regular.release made, ?_, apart⟩⟩
      obtain ⟨v, -, rfl⟩ := Release.make?_eq_some.1 made
      exact used

/-- A release that is kept is loaded by its tag. -/
theorem load (options : StoreOptions) (h : Keeps root w kept) (apart : StoredRelease.Apart kept)
    (mem : k ∈ kept) :
    YieldsIf (Store.load ⟨root, options⟩ k.release.tag) w k.release.Readable
      k.release.reread := by
  cases h with
  | fresh isFresh => cases mem
  | shelf isRoot holds =>
    subst isRoot
    have regular := apart.regular k mem
    exact holds.load (Store.isPieceName_dirName (StoredRelease.tagged regular))
      (Shelf.holding_of_mem apart mem) regular
      (Store.versionDir_of_checked _ regular.checked)

/-- The last release is loaded as the newest one. -/
theorem load_latest (options : StoreOptions) (h : Keeps root w (k :: kept))
    (apart : StoredRelease.Apart (k :: kept)) :
    YieldsIf (Store.load ⟨root, options⟩ Store.latestName) w k.release.Readable
      k.release.reread := by
  cases h with
  | shelf isRoot holds =>
    subst isRoot
    exact holds.load Store.isPieceName_latest (Shelf.holding_latest k kept)
      (apart.regular k List.mem_cons_self) rfl

theorem list (h : Keeps root w kept) (written : root.pieces ≠ [])
    (apart : StoredRelease.Apart kept) :
    ∃ manifests, Yields (Store.list ⟨root, options⟩) w (.ok manifests) w ∧
      manifests.Perm (kept.map StoredRelease.manifest) ∧
        manifests.Pairwise fun a b => a.order b = .lt := by
  cases h with
  | shelf isRoot holds =>
    subst isRoot
    exact holds.list apart
  | fresh isFresh =>
    -- A directory that was never created is not listed at all, one that was there is empty.
    cases isDirectory : ((FileProgram.isDirectory root).run w).1 with
    | true =>
      obtain ⟨q, placed, found⟩ := World.exists_place_of_isDirectory isDirectory
      have there := yields_createDirectories isFresh.noFault written placed found
      obtain ⟨site, w₁, rfl, created, holds⟩ := isFresh.exists_shows written
      obtain ⟨-, rfl⟩ := created.unique there
      exact holds.list apart
    | false =>
      have asked : Yields (FileAction.isDirectory root) w (.ok false) w :=
        yields_ofProgram (Prod.ext isDirectory rfl)
      exact ⟨[], asked.bind (yields_pure [] w), .refl _, .nil⟩

end Keeps

namespace Run

variable {root : FilePath} {start w : World} {history : History}

/-- What all calls of a history come to, and what the store keeps after them. -/
theorem keeps (fresh : Fresh root start) (written : root.pieces ≠ [])
    (run : Run root start history w) (regular : ∀ e ∈ history, e.1.Regular) :
    Keeps root w history.stored ∧ StoredRelease.Apart history.stored ∧
      ∀ later call result earlier, history = later ++ (call, result) :: earlier →
        Answers (History.stored earlier) call result := by
  induction run with
  | start => exact ⟨.fresh fresh, ⟨nofun, .nil⟩, by simp⟩
  | wait run later ih =>
    obtain ⟨keeps, apart, answers⟩ := ih regular
    exact ⟨keeps.unchanged later, apart, answers⟩
  | call run yields ih =>
    obtain ⟨first, others⟩ := List.forall_mem_cons.1 regular
    obtain ⟨keeps, apart, answers⟩ := ih others
    obtain ⟨answer, keeps, apart⟩ := keeps.freeze written apart first yields
    refine ⟨keeps, apart, fun later call' result' earlier form => ?_⟩
    cases later with
    | nil =>
      cases form
      exact answer
    | cons last later =>
      cases form
      exact answers later call' result' earlier rfl

/-- A store is a map from the directories of tags to releases that is only ever added to. A call
succeeds just when its tag is valid and not used. A release is then loaded as it was made if its
documents are read back as they were written, the newest one as long as its documents can be read,
and all manifests are listed in their order. -/
theorem refines_map {root : String} (fresh : Fresh root start) (run : Run root start history w)
    (regular : ∀ e ∈ history, e.1.Regular) :
    (∀ later call result earlier, history = later ++ (call, result) :: earlier →
      ((∃ r, result = .ok r) ↔ (Version.ofCheckedTag? call.tag).isSome = true ∧
        ∀ k ∈ History.stored earlier, k.release.dirName ≠ Version.dirName call.tag) ∧
      ∀ r, result = .ok r → ∃ now, Release.make? call.tag call.products now = some r) ∧
    (∀ k ∈ history.stored, ∀ options,
      Yields (Store.load ⟨root, options⟩ k.release.tag) w (.ok k.release) w ↔
        k.release.ReadsBack) ∧
    (∀ last earlier, history.stored = last :: earlier → ∀ options,
      (∃ r, Yields (Store.load ⟨root, options⟩ Store.latestName) w (.ok r) w ∧
        r.version = last.release.version) ↔ last.release.Readable) ∧
    ∀ options, ∃ manifests, Yields (Store.list ⟨root, options⟩) w (.ok manifests) w ∧
      manifests.Perm (history.stored.map StoredRelease.manifest) ∧
        manifests.Pairwise fun a b => a.order b = .lt := by
  have written := FilePath.pieces_ofText_ne_nil root
  obtain ⟨keeps, apart, answers⟩ := run.keeps fresh written regular
  refine ⟨fun later call result earlier form => ?_, fun k mem options => ?_,
    fun last earlier form options => ?_, fun options => keeps.list written apart⟩
  · have answer := answers later call result earlier form
    exact ⟨answer.exists_eq_ok_iff, fun r same => (same ▸ answer).make?⟩
  · rw [(keeps.load options apart mem).yields_iff, Release.readsBack_iff, eq_comm (a := k.release)]
  · rw [form] at keeps apart
    have loaded := keeps.load_latest options apart
    constructor
    · rintro ⟨r, yields, -⟩
      exact (loaded.yields_iff.1 yields).1
    · intro readable
      exact ⟨_, loaded.yields_iff.2 ⟨readable, rfl⟩, rfl⟩

end Run

/-- A float that is not read as it was written. -/
def electronCharge : Number.Double := .ofRatio false 1602176634 (10 ^ 28)

def electron : Dataset :=
  ⟨"electron", .plain, [⟨"charge", .literal (.float electronCharge)⟩], [], [], []⟩

theorem floats_electron : electron.floats = [electronCharge] := by
  simp only [electron, Group.floats_eq]
  rfl

theorem not_readsBack_electron : ¬ electron.ReadsBack := by
  intro h
  have same := h.numbers electronCharge (floats_electron ▸ List.mem_singleton_self _)
  exact absurd same (by decide +kernel)

def electronCall : FreezeCall := ⟨.standard, .ofList [("electron", electron)], "1.0.0"⟩

theorem regular_electronCall : electronCall.Regular where
  plain e mem := by
    obtain rfl := List.mem_singleton.1 mem
    exact ⟨⟨by decide, by decide, by decide, by decide, by decide⟩, by decide⟩
  finite e mem x isIn := by
    obtain rfl := List.mem_singleton.1 mem
    rw [floats_electron, List.mem_singleton] at isIn
    rw [isIn]
    decide +kernel

def emptyWorld : World := ⟨.empty, [], 0, "", none⟩

theorem fresh_emptyWorld : Fresh (FilePath.ofText "store") emptyWorld := by
  have placed : emptyWorld.tree.place emptyWorld.directory (FilePath.ofText "store") =
      .ok ["store"] := by decide +kernel
  exact .of_absent rfl (FilePath.pieces_ofText_ne_nil _) placed (by decide) fun _ => rfl

theorem refines_map_electron : ∃ r w,
    Run (FilePath.ofText "store") emptyWorld [(electronCall, .ok r)] w ∧
      ¬ Yields (Store.load ⟨FilePath.ofText "store", .standard⟩ "1.0.0") w (.ok r) w := by
  let action := Store.freeze ⟨FilePath.ofText "store", electronCall.options⟩ electronCall.products
    electronCall.tag
  have run : Run (FilePath.ofText "store") emptyWorld [(electronCall, _)] _ :=
    .call .start (yields_run action emptyWorld)
  obtain ⟨answers, loads, -, -⟩ := Run.refines_map fresh_emptyWorld run fun e mem =>
    List.mem_singleton.1 mem ▸ regular_electronCall
  obtain ⟨succeeds, makes⟩ := answers [] electronCall _ [] rfl
  obtain ⟨r, added⟩ := succeeds.2 ⟨by decide +kernel, nofun⟩
  obtain ⟨now, made⟩ := makes r added
  rw [added] at run loads
  refine ⟨r, _, run, fun loaded => ?_⟩
  obtain ⟨v, -, rfl⟩ := Release.make?_eq_some.1 made
  have all := (loads _ List.mem_cons_self .standard).1 loaded
  exact not_readsBack_electron (all.products ("electron", electron) List.mem_cons_self)

end ProductSpec
