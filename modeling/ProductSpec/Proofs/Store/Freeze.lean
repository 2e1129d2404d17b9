/-
  Adding a release to a store whose directory is at rest: afterwards the directory holds what it
  held before, the files of the release under its tag, and the same files as the newest release.
-/
import ProductSpec.Proofs.Store.Artifacts
import ProductSpec.Proofs.Store.Operation

namespace ProductSpec

namespace Shelf

open Store

variable {shelf : Shelf} {name hidden : String} {item : Option Item} {options : StoreOptions}
  {r : Release} {v : Version}

/-- What is on a shelf after a release has been added. -/
def add (options : StoreOptions) (r : Release) (shelf : Shelf) : Shelf :=
  Function.update (Function.update shelf r.dirName (some (.folder (r.files options))))
    latestName (some (.folder (r.files options)))

/-- Nobody is at work on the newest release. -/
structure LatestAtRest (shelf : Shelf) : Prop where
  lock : shelf ".latest.lock" = none
  staging : shelf ".latest.staging" = none
  old : shelf ".latest.old" = none
  latest : ∀ content, shelf latestName ≠ some (.file content)

theorem LatestAtRest.update (h : shelf.LatestAtRest) (apart : name ∉ latestNames) :
    LatestAtRest (Function.update shelf name item) := by
  simp only [latestNames, List.mem_cons, List.not_mem_nil, or_false, not_or] at apart
  obtain ⟨notLock, notStaging, notOld, notLatest⟩ := apart
  refine ⟨?_, ?_, ?_, ?_⟩
  · rw [Function.update_of_ne (Ne.symm notLock), h.lock]
  · rw [Function.update_of_ne (Ne.symm notStaging), h.staging]
  · rw [Function.update_of_ne (Ne.symm notOld), h.old]
  · rw [Function.update_of_ne (Ne.symm notLatest)]
    exact h.latest

/-- Nobody is at work in the directory: no hidden name is taken, and all files are in
directories. -/
structure AtRest (shelf : Shelf) : Prop where
  hidden : ∀ name, name.toList.head? = some '.' → shelf name = none
  folders : ∀ name content, shelf name ≠ some (.file content)

theorem AtRest.latestAtRest (h : shelf.AtRest) : shelf.LatestAtRest :=
  ⟨h.hidden _ rfl, h.hidden _ rfl, h.hidden _ rfl, h.folders latestName⟩

theorem AtRest.update (h : shelf.AtRest) (visible : name.toList.head? ≠ some '.')
    (files : String → Option ByteArray) :
    AtRest (Function.update shelf name (some (.folder files))) where
  hidden name' isHidden := by
    have unlike : name' ≠ name := fun same => visible (same ▸ isHidden)
    rw [Function.update_of_ne unlike, h.hidden name' isHidden]
  folders name' content := by
    rw [Function.update_apply]
    split
    · exact nofun
    · exact h.folders name' content

theorem AtRest.add (h : shelf.AtRest) (tag : Version.ofTag? r.tag = some v) :
    (shelf.add options r).AtRest := by
  have visible := (isReleaseName_iff.1 (isReleaseName_dirName tag)).1
  exact (h.update visible _).update (by decide) _

/-- What was first put under one name and then moved to another one. -/
theorem update_moved (unlike : name ≠ hidden) (free : shelf hidden = none) :
    Function.update (Function.update (Function.update shelf hidden item) name item) hidden none =
      Function.update shelf name item := by
  rw [Function.update_comm unlike, Function.update_idem, ← free, Function.update_eq_self]

theorem add_of_ne (notRelease : name ≠ r.dirName) (notLatest : name ≠ latestName) :
    shelf.add options r name = shelf name := by
  rw [add, Function.update_of_ne notLatest, Function.update_of_ne notRelease]

/-- A lock that was held while a release was added leaves nothing behind. -/
theorem add_update (notRelease : hidden ≠ r.dirName) (notLatest : hidden ≠ latestName)
    (free : shelf hidden = none) :
    Function.update (add options r (Function.update shelf hidden item)) hidden none =
      shelf.add options r := by
  rw [add, Function.update_comm notLatest.symm, Function.update_comm notRelease.symm,
    Function.update_idem, ← free, Function.update_eq_self, add]

end Shelf

namespace Site.Shows

open FileAction Store

variable {site : Site} {shelf : Shelf} {w : World} {a c : String}
  {files others : String → Option ByteArray}

theorem writeArtifacts (h : site.Shows shelf w) (name : IsPieceName a)
    (folder : shelf a = some (.folder files)) {artifacts : List Release.Artifact}
    (names : ∀ x ∈ artifacts, IsPieceName x.file) :
    ∃ w', Yields (Store.writeArtifacts (site.root.join a) artifacts) w (.ok ()) w' ∧
      site.Shows (Function.update shelf a
        (some (.folder (artifacts.foldl Release.Artifact.put files)))) w' := by
  induction artifacts generalizing shelf w files with
  | nil =>
    refine ⟨w, yields_pure () w, ?_⟩
    rwa [List.foldl_nil, ← folder, Function.update_eq_self]
  | cons x rest ih =>
    obtain ⟨first, names⟩ := List.forall_mem_cons.1 names
    obtain ⟨w₁, written, h₁⟩ := h.writeText name first folder x.content
    obtain ⟨w₂, others, h₂⟩ := ih h₁ (Function.update_self ..) names
    refine ⟨w₂, written.bind others, ?_⟩
    rwa [Function.update_idem] at h₂

theorem copyEntries (h : site.Shows shelf w) (name : IsPieceName a) (name' : IsPieceName c)
    (unlike : a ≠ c) (folder : shelf a = some (.folder files))
    (folder' : shelf c = some (.folder others)) {listed : List (String × FileKind)}
    (real : ∀ e ∈ listed, e.2 = .file ∧ (files e.1).isSome = true)
    (names : ∀ e ∈ listed, IsPieceName e.1) :
    ∃ w', Yields (Store.copyEntries (site.root.join a) (site.root.join c) listed) w (.ok ()) w' ∧
      site.Shows (Function.update shelf c (some (.folder
        (listed.foldl (fun others e => Function.update others e.1 (files e.1)) others)))) w' := by
  induction listed generalizing shelf w others with
  | nil =>
    refine ⟨w, yields_pure () w, ?_⟩
    rwa [List.foldl_nil, ← folder', Function.update_eq_self]
  | cons e rest ih =>
    obtain ⟨file, kind⟩ := e
    obtain ⟨⟨isFile, present⟩, realRest⟩ := List.forall_mem_cons.1 real
    obtain ⟨first, namesRest⟩ := List.forall_mem_cons.1 names
    cases isFile
    obtain ⟨content, found⟩ := Option.isSome_iff_exists.1 present
    obtain ⟨w₁, copied, h₁⟩ := h.copy name first folder found name' folder'
    -- The directory that is copied from is another one, so it is as before for the other files.
    obtain ⟨w₂, onward, h₂⟩ := ih h₁ ((Function.update_of_ne unlike _ _).trans folder)
      (Function.update_self ..) realRest namesRest
    refine ⟨w₂, copied.bind onward, ?_⟩
    rwa [Function.update_idem, ← found] at h₂

theorem foldl_update_apply (listed : List (String × FileKind)) (b : String) :
    listed.foldl (fun others e => Function.update others e.1 (files e.1)) others b =
      if b ∈ listed.map Prod.fst then files b else others b := by
  induction listed generalizing others with
  | nil => simp
  | cons e rest ih =>
    rw [List.foldl_cons, ih, Function.update_apply, List.map_cons]
    by_cases same : b = e.1
    · simp [same]
    · simp only [List.mem_cons, same, false_or, if_false]

/-- What comes of copying the files that a directory lists. -/
theorem foldl_update_listed {listed : List (String × FileKind)}
    (real : ∀ e : String × FileKind, e ∈ listed ↔ e.2 = .file ∧ (files e.1).isSome = true) :
    listed.foldl (fun others e => Function.update others e.1 (files e.1)) (fun _ => none) =
      files := by
  funext b
  rw [foldl_update_apply]
  split
  · rfl
  · next unlisted =>
    cases found : files b with
    | none => rfl
    | some content =>
      have mem : (b, FileKind.file) ∈ listed := (real _).2 ⟨rfl, by rw [found]; rfl⟩
      exact absurd (List.mem_map_of_mem (f := Prod.fst) mem) unlisted

/-- The files of a directory are copied to a new one. -/
theorem copyFiles (h : site.Shows shelf w) (name : IsPieceName a) (name' : IsPieceName c)
    (folder : shelf a = some (.folder files)) (free : shelf c = none)
    (names : ∀ b, (files b).isSome = true → IsPieceName b) :
    ∃ w', Yields (Store.copyFiles (site.root.join a) (site.root.join c)) w (.ok ()) w' ∧
      site.Shows (Function.update shelf c (some (.folder files))) w' := by
  have unlike : a ≠ c := by
    rintro rfl
    cases free.symm.trans folder
  obtain ⟨w₁, created, h₁⟩ := h.createDirectories name' free
  have folder₁ : Function.update shelf c (some (.folder fun _ => none)) a =
      some (.folder files) := (Function.update_of_ne unlike _ _).trans folder
  obtain ⟨listed, asked, real⟩ := h₁.list_child name folder₁
  obtain ⟨w₂, copied, h₂⟩ := h₁.copyEntries name name' unlike folder₁ (Function.update_self ..)
    (fun e mem => (real e).1 mem) fun e mem => names e.1 ((real e).1 mem).2
  refine ⟨w₂, created.bind (asked.bind copied), ?_⟩
  rwa [Function.update_idem, foldl_update_listed real] at h₂

variable {options : StoreOptions}

/-- The new copy of the newest release takes the place of the former one. -/
theorem swapLatest (h : site.Shows shelf w)
    (staged : shelf ".latest.staging" = some (.folder files)) (old : shelf ".latest.old" = none)
    (latest : ∀ content, shelf latestName ≠ some (.file content)) :
    ∃ w', Yields (Store.swapLatest ⟨site.root, options⟩) w (.ok ()) w' ∧
      site.Shows (Function.update (Function.update shelf latestName (some (.folder files)))
        ".latest.staging" none) w' := by
  have asked := h.exists? isPieceName_latest
  have names : [latestName, ".latest.staging", ".latest.old"].Nodup := by decide
  simp only [List.nodup_cons, List.mem_cons, List.not_mem_nil, or_false, not_or] at names
  obtain ⟨⟨notStaging, notOld⟩, apart, -⟩ := names
  cases item : shelf latestName with
  | none =>
    -- There is no newest release yet, and nothing has to be put aside.
    rw [item] at asked
    obtain ⟨w₁, renamed, h₁⟩ := h.rename isPieceName_latestStaging staged isPieceName_latest item
    have removed := h₁.removeIfExists_of_free isPieceName_latestOld (by
      grind [Function.update_apply])
    exact ⟨w₁, asked.bind (renamed.onFailure.bind removed.tolerate), h₁⟩
  | some item' =>
    cases item' with
    | file content => exact absurd item (latest content)
    | folder former =>
      rw [item] at asked
      -- The former one is put aside under a third name and removed once the new one is in place.
      obtain ⟨w₁, kept, h₁⟩ := h.rename isPieceName_latest item isPieceName_latestOld old
      obtain ⟨w₂, renamed, h₂⟩ := h₁.rename isPieceName_latestStaging
        (show _ = some (Item.folder files) by grind [Function.update_apply]) isPieceName_latest
        (Function.update_self ..)
      obtain ⟨w₃, removed, h₃⟩ := h₂.removeIfExists isPieceName_latestOld
        (show _ = some (Item.folder former) by grind [Function.update_apply])
      refine ⟨w₃, asked.bind (kept.bind (renamed.onFailure.bind removed.tolerate)), ?_⟩
      convert h₃ using 1
      funext name
      grind [Function.update_apply]

/-- A copy of a directory becomes the newest release. -/
theorem replaceLatest (h : site.Shows shelf w) (rest : shelf.LatestAtRest) (name : IsPieceName a)
    (folder : shelf a = some (.folder files))
    (names : ∀ b, (files b).isSome = true → IsPieceName b) :
    ∃ w', Yields (Store.replaceLatest ⟨site.root, options⟩ (site.root.join a)) w (.ok ()) w' ∧
      site.Shows (Function.update shelf latestName (some (.folder files))) w' := by
  have apart : [".latest.lock", ".latest.staging", ".latest.old", latestName].Nodup := by decide
  simp only [List.nodup_cons, List.mem_cons, List.not_mem_nil, or_false, not_or] at apart
  obtain ⟨lock, staging, old, latest⟩ := rest
  -- Four shelves follow each other: locked, with the copy, swapped, and without the lock again.
  obtain ⟨w₁, told, locked, h₁⟩ := h.takeLock isPieceName_latestLock lock
  have cleared := h₁.removeIfExists_of_free isPieceName_latestStaging (by
    grind [Function.update_apply])
  have cleared' := h₁.removeIfExists_of_free isPieceName_latestOld (by
    grind [Function.update_apply])
  obtain ⟨w₂, copied, h₂⟩ := h₁.copyFiles name isPieceName_latestStaging
    (show _ = some (Item.folder files) by grind [Function.update_apply])
    (by grind [Function.update_apply]) names
  obtain ⟨w₃, swapped, h₃⟩ := h₂.swapLatest (Function.update_self ..)
    (by grind [Function.update_apply]) (by grind [Function.update_apply])
  obtain ⟨w₄, released, h₄⟩ := h₃.releaseLock isPieceName_latestLock
    (show _ = some (Item.file told) by grind [Function.update_apply])
  have waited : Yields (Lock.wait latestAttempts (site.root.join ".latest.lock")) w (.ok ()) w₁ :=
    locked.bind (yields_pure () w₁)
  refine ⟨w₄, waited.bind ((cleared.bind (cleared'.bind (copied.bind swapped))).finallyDo released),
    ?_⟩
  convert h₄ using 1
  funext name
  grind [Function.update_apply]

/-- The files of a release are put under its tag and become the newest release. -/
theorem write (options : StoreOptions) (h : site.Shows shelf w) (rest : shelf.LatestAtRest)
    {r : Release} {v : Version} (tag : Version.ofTag? r.tag = some v) (unlike : r.tag ≠ latestName)
    (plain : r.HasPlainNames) (free : shelf (Version.dirName r.tag) = none)
    (staging : shelf ("." ++ Version.dirName r.tag ++ ".staging") = none) :
    ∃ w', Yields (Store.write ⟨site.root, options⟩ r) w (.ok ()) w' ∧
      site.Shows (shelf.add options r) w' := by
  have notHidden := dirName_ne_hidden tag (Version.dirName r.tag) ".staging"
  have target := isPieceName_dirName tag
  have hidden := isPieceName_staging tag
  have names : ∀ x ∈ r.artifacts options, IsPieceName x.file := fun x =>
    Release.isPieceName_artifact plain
  -- Nothing is left of a former attempt, as the hidden name is free.
  have cleared := h.removeIfExists_of_free hidden staging
  obtain ⟨w₁, created, h₁⟩ := h.createDirectories hidden staging
  obtain ⟨w₂, written, h₂⟩ := h₁.writeArtifacts hidden (Function.update_self ..) names
  rw [Function.update_idem] at h₂
  obtain ⟨w₃, renamed, h₃⟩ := h₂.rename hidden (Function.update_self ..) target
    ((Function.update_of_ne notHidden _ _).trans free)
  -- The directory was filled under its hidden name, which is free again once it has been renamed.
  rw [Shelf.update_moved notHidden staging] at h₃
  obtain ⟨w₄, replaced, h₄⟩ := h₃.replaceLatest (rest.update (dirName_notMem_latestNames tag))
    target (Function.update_self ..) fun b => Release.isPieceName_of_files plain
  refine ⟨w₄, cleared.bind ((created.bind written).onFailure.bind ?_), h₄⟩
  rw [versionDir_of_ne _ unlike]
  exact renamed.bind replaced.onFailure

variable {w₀ : World} {products : NameMap Dataset} {tag : String} {v : Version}

/-- A tag that is already used is refused. -/
theorem freeze_of_taken {item : Item}
    (created : Yields (FileAction.createDirectories site.root) w₀ (.ok ()) w)
    (h : site.Shows shelf w) (checked : Version.ofCheckedTag? tag = some v)
    (taken : shelf (Version.dirName tag) = some item) :
    Yields (Store.freeze ⟨site.root, options⟩ products tag) w₀ (.error (.versionExists tag)) w := by
  have asked := h.exists? (isPieceName_dirName (Version.ofTag?_of_ofCheckedTag? checked))
  rw [taken] at asked
  unfold Store.freeze
  rw [checked, versionDir_of_checked _ checked]
  exact created.bind (asked.bind (yields_throw (.versionExists tag) w))

/-- A tag that is not used is taken. -/
theorem freeze_of_free (created : Yields (FileAction.createDirectories site.root) w₀ (.ok ()) w)
    (h : site.Shows shelf w) (rest : shelf.AtRest) (checked : Version.ofCheckedTag? tag = some v)
    (free : shelf (Version.dirName tag) = none)
    (plain : ∀ e ∈ products.entries, IsPlainName e.1) :
    ∃ now r w', Release.make? tag products (.ofClock now) = some r ∧
      Yields (Store.freeze ⟨site.root, options⟩ products tag) w₀ (.ok r) w' ∧
        site.Shows (shelf.add options r) w' := by
  have tagged := Version.ofTag?_of_ofCheckedTag? checked
  have notLatest := ne_latest_of_ofCheckedTag? checked
  have target := isPieceName_dirName tagged
  have lock := isPieceName_lock tagged
  have unheld := rest.hidden _ (head?_hidden (Version.dirName tag) ".lock")
  have unstaged := rest.hidden _ (head?_hidden (Version.dirName tag) ".staging")
  have notHeld := dirName_ne_hidden tagged (Version.dirName tag) ".lock"
  have notStaging := lock_ne_staging (Version.dirName tag)
  have notOthers := hidden_notMem_latestNames tagged ".lock"
  -- The name is kept as a variable, so that no later step looks into how it is put together.
  generalize lockName : "." ++ Version.dirName tag ++ ".lock" = held at *
  have heldNotLatest : held ≠ latestName := fun same => notOthers (same ▸ by decide)
  have asked := h.exists? target
  obtain ⟨w₁, told, locked, h₁⟩ := h.takeLock lock unheld
  -- The tag is looked for twice, before and after the lock is taken; both times it is free.
  have asked₁ := h₁.exists? target
  rw [Function.update_of_ne notHeld, free] at asked₁
  rw [free] at asked
  let r : Release := ⟨tag, v, .ofClock w₁.clock, products, JsonSchema.ofProducts products⟩
  have made : Release.make? tag products (.ofClock w₁.clock) = some r :=
    Release.make?_eq_some.2 ⟨v, checked, rfl⟩
  obtain ⟨w₂, written, h₂⟩ := h₁.write options (r := r) (rest.latestAtRest.update notOthers)
    tagged notLatest plain ((Function.update_of_ne notHeld _ _).trans free)
    ((Function.update_of_ne (Ne.symm notStaging) _ _).trans unstaged)
  have notRelease : held ≠ r.dirName := Ne.symm notHeld
  have stillHeld : Shelf.add options r (Function.update shelf held (some (.file told))) held =
      some (.file told) := by
    rw [Shelf.add_of_ne notRelease heldNotLatest, Function.update_self]
  obtain ⟨w₃, released, h₃⟩ := h₂.releaseLock lock stillHeld
  rw [Shelf.add_update notRelease heldNotLatest unheld] at h₃
  refine ⟨w₁.clock, r, w₃, made, ?_, h₃⟩
  subst lockName
  unfold Store.freeze
  rw [checked, versionDir_of_ne _ notLatest]
  refine created.bind (asked.bind (locked.bind (Yields.finallyDo (asked₁.bind ?_) released)))
  refine Yields.bind (x := .ofClock w₁.clock) (yields_ofProgram rfl) ?_
  rw [made]
  exact Yields.bind (yields_ofOption _ (some r) w₁) (written.bind (yields_pure r w₂))

end Site.Shows

end ProductSpec
