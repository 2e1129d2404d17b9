/-
  What adding a release to a store may change: the entries that the store uses for it, and the
  places to which the names of its products lead from the staging directory. A name that leads out
  of that directory is followed.
-/
import ProductSpec.Proofs.File.Way
import ProductSpec.Proofs.Store.Artifacts

namespace ProductSpec

open FileAction FileTree

variable {directory : FilePlace} {inside way : FilePlace → Prop} {path source target : FilePath}

namespace Lock

theorem within_isStale (path : FilePath) : (isStale path).Within directory inside way := by
  have read : (FileProgram.readText path).Within directory inside way :=
    (FileProgram.within_look (.read path) rfl).bind fun reply => by
      split
      · exact .done _
      · split <;> exact .done _
  have instant : (instant? path).Within directory inside way :=
    read.bind fun text => by
      split
      · exact .done _
      · exact (FileProgram.within_look (.modified path) rfl).bind fun _ => .done _
  refine instant.bind fun taken => ?_
  split
  · exact .done _
  · exact (FileProgram.within_look .now rfl).bind fun _ => .done _

variable (written : path.IsWritten) (here : inside (resolve directory path))

include written here

theorem within_create : (create path).Within directory inside way := by
  have createFile : (FileProgram.perform (.createFile path)).Within directory inside way :=
    FileProgram.within_perform ⟨written, here⟩
  refine (within_ofProgram createFile).bind fun reply => ?_
  split
  · exact within_pure _
  · exact within_throw _
  · refine (within_ofProgram (FileProgram.within_look .now rfl)).bind fun now => ?_
    have append : (FileProgram.perform (.append path (takenLine now).toUTF8)).Within directory
      inside way := FileProgram.within_perform ⟨written, here⟩
    exact (within_ofFile append).bind fun _ => within_pure _

omit written in
theorem within_removeFile : (FileProgram.perform (.removeFile path)).Within directory inside way :=
  FileProgram.within_perform here

omit written in
theorem within_discard : (discard path).Within directory inside way := by
  refine (within_ofProgram (within_removeFile here)).bind fun reply => ?_
  split
  · exact within_pure _
  · exact within_pure _
  · exact within_throw _

theorem within_take : (take path).Within directory inside way := by
  refine (within_create written here).bind fun taken => .ite (within_pure _) ?_
  refine (within_ofProgram (within_isStale path)).bind fun stale => .ite (within_pure _) ?_
  exact (within_discard here).bind fun _ => within_create written here

theorem within_wait (attempts : Nat) : (wait attempts path).Within directory inside way := by
  induction attempts with
  | zero => exact within_throw _
  | succ attempts ih =>
    refine (within_take written here).bind fun taken => .ite (within_pure _) ?_
    exact (within_ofProgram (FileProgram.within_look (.pause 20) rfl)).bind fun _ => ih

omit written in
theorem within_release : (release path).Within directory inside way :=
  within_ofFile (within_removeFile here)

end Lock

namespace Store

theorem within_writeArtifacts (written : path.IsWritten) {artifacts : List Release.Artifact}
    (here : ∀ a ∈ artifacts, inside (resolve directory (path.join a.file))) :
    (writeArtifacts path artifacts).Within directory inside way := by
  induction artifacts with
  | nil => exact within_pure _
  | cons a rest ih =>
    rw [List.forall_mem_cons] at here
    exact (within_writeText (written.join a.file) here.1 _).bind fun _ => ih here.2

theorem within_copyEntries (written : target.IsWritten)
    (all : ∀ rest, inside (resolve directory target ++ rest)) {entries : List (String × FileKind)}
    (names : ∀ e ∈ entries, IsPieceName e.1) :
    (copyEntries source target entries).Within directory inside way := by
  induction entries with
  | nil => exact within_pure _
  | cons e rest ih =>
    obtain ⟨isName, others⟩ := List.forall_mem_cons.1 names
    obtain ⟨name, kind⟩ := e
    cases kind with
    | directory => exact ih others
    | file =>
      have copy : (FileProgram.perform (.copy (source.join name) (target.join name))).Within
          directory inside way := by
        refine FileProgram.within_perform ⟨written.join name, ?_⟩
        rw [resolve_child isName]
        exact all [name]
      exact (within_ofFile copy).bind fun _ => ih others

theorem within_copyFiles (written : target.IsWritten)
    (all : ∀ rest, inside (resolve directory target ++ rest))
    (onWay : ∀ q, OnWay directory target q → inside q ∨ way q) :
    (copyFiles source target).Within directory inside way := by
  refine (within_createDirectories written onWay).bind fun _ => ?_
  exact within_list_bind fun entries names => within_copyEntries written all names

variable {s : Store} {names : List String} {tag : String} {r : Release}

/-- The places of some entries of a store and those below them. -/
def Owns (s : Store) (directory : FilePlace) (names : List String) (q : FilePlace) : Prop :=
  ∃ name ∈ names, ∃ rest, q = resolve directory s.root ++ name :: rest

/-- The names of the entries that a store uses to add a release. -/
def usedNames (tag : String) : List String :=
  Version.dirName tag :: ("." ++ Version.dirName tag ++ ".lock") ::
    ("." ++ Version.dirName tag ++ ".staging") :: latestNames

section Entries

variable (root : s.root.IsWritten) (own : ∀ q, s.Owns directory names q → inside q)
  (onWay : ∀ q, OnWay directory s.root q → way q) {name : String} (mem : name ∈ names)
  (isName : IsPieceName name)

include own mem isName

theorem inside_file (rest : List String) : inside (resolve directory (s.file name) ++ rest) := by
  rw [file, resolve_child isName, List.append_assoc]
  exact own _ ⟨name, mem, rest, rfl⟩

theorem here_file : inside (resolve directory (s.file name)) := by
  have here := inside_file own mem isName []
  rwa [List.append_nil] at here

include onWay in
theorem onWay_file (q : FilePlace) (h : OnWay directory (s.file name) q) : inside q ∨ way q := by
  rcases h.of_join isName with h | rfl
  · exact .inr (onWay q h)
  · exact .inl (here_file own mem isName)

end Entries

section Latest

variable (root : s.root.IsWritten) (own : ∀ q, s.Owns directory names q → inside q)
  (latest : latestNames ⊆ names)

include root own latest

theorem within_swapLatest : s.swapLatest.Within directory inside way := by
  have here {name : String} (mem : name ∈ latestNames) (isName : IsPieceName name) :=
    inside_file own (latest mem) isName
  have newest := here (by decide) isPieceName_latest
  have staging := here (by decide) isPieceName_latestStaging
  have old := here (by decide) isPieceName_latestOld
  have swap {undo : FileAction Unit} (undoing : undo.Within directory inside way) :
      (do
        (rename (s.file ".latest.staging") (s.file latestName)).onFailure undo
        tolerate (removeIfExists (s.file ".latest.old"))).Within directory inside way :=
    ((within_rename (root.join _) staging newest).onFailure undoing).bind fun _ =>
      (within_removeIfExists old).tolerate
  refine (within_exists? _).bind fun hadLatest => ?_
  cases hadLatest with
  | true =>
    exact (within_rename (root.join _) newest old).bind fun _ =>
      swap ((within_rename (root.join _) old newest).tolerate.bind fun _ =>
        within_removeTree staging)
  | false => exact swap (within_removeTree staging)

theorem within_replaceLatest (onWay : ∀ q, OnWay directory s.root q → way q) (source : FilePath) :
    (s.replaceLatest source).Within directory inside way := by
  have here {name : String} (mem : name ∈ latestNames) (isName : IsPieceName name) :=
    inside_file own (latest mem) isName
  have lock := here_file own (latest (by decide)) isPieceName_latestLock
  have staging := here (by decide) isPieceName_latestStaging
  have old := here (by decide) isPieceName_latestOld
  refine (Lock.within_wait (root.join _) lock _).bind fun _ => ?_
  refine Within.finallyDo ?_ (Lock.within_release lock)
  refine (within_removeIfExists staging).bind fun _ => ?_
  refine (within_removeIfExists old).bind fun _ => ?_
  refine (within_copyFiles (root.join _) staging
    (onWay_file own onWay (latest (by decide)) isPieceName_latestStaging)).bind fun _ => ?_
  exact within_swapLatest root own latest

end Latest

/-- The place to which the name of a product leads from the staging directory of a tag. -/
def productPlace (s : Store) (directory : FilePlace) (tag name : String) : FilePlace :=
  resolve directory ((s.stagingPath tag).join (Release.productFile name))

/-- What is done to add a release while the lock of its tag is held. -/
def addLocked (s : Store) (products : NameMap Dataset) (tag : String) : FileAction Release := do
  if ← exists? (s.versionDir tag) then throw (.versionExists tag)
  let now ← ofProgram (.perform .now)
  let r ← ofOption (.invalidTag tag) (Release.make? tag products now)
  s.write r
  return r

/-- What is done to add a release that is not there: it is written under the lock of its tag. -/
def lockAndAdd (s : Store) (products : NameMap Dataset) (tag : String) : FileAction Release := do
  if !(← Lock.take (s.lockPath tag)) then
    if ← exists? (s.versionDir tag) then throw (.versionExists tag)
    throw (.locked tag (s.lockPath tag).text)
  (s.addLocked products tag).finallyDo (Lock.release (s.lockPath tag))

theorem freeze_eq (s : Store) (products : NameMap Dataset) {v : Version}
    (checked : Version.ofCheckedTag? tag = some v) : s.freeze products tag = (do
      createDirectories s.root
      if ← exists? (s.versionDir tag) then throw (.versionExists tag)
      s.lockAndAdd products tag) := by
  unfold freeze
  rw [checked]
  rfl

section Freeze

variable (root : s.root.IsWritten) {v : Version} (checked : Version.ofCheckedTag? tag = some v)
  (own : ∀ q, s.Owns directory (usedNames tag) q → inside q)
  (onWay : ∀ q, OnWay directory s.root q → way q)

include root checked own onWay

theorem within_write (sameTag : r.tag = tag)
    (products : ∀ e ∈ r.products.entries, inside (s.productPlace directory tag e.1)) :
    (s.write r).Within directory inside way := by
  subst sameTag
  have tagged := Version.ofTag?_of_ofCheckedTag? checked
  have hidden := isPieceName_staging tagged
  have target := inside_file own List.mem_cons_self (isPieceName_dirName tagged)
  have stagingName : s.stagingPath r.tag =
      s.file ("." ++ Version.dirName r.tag ++ ".staging") := rfl
  have written : (s.stagingPath r.tag).IsWritten := root.join _
  have staging := inside_file own (by simp [usedNames]) hidden
  have onWayStaging := onWay_file own onWay (by simp [usedNames]) hidden
  rw [← stagingName] at staging onWayStaging
  have artifacts : ∀ a ∈ r.artifacts s.options,
      inside (resolve directory ((s.stagingPath r.tag).join a.file)) := by
    intro a mem
    have ofName (isName : IsPieceName a.file) :
        inside (resolve directory ((s.stagingPath r.tag).join a.file)) := by
      rw [resolve_child isName]
      exact staging [a.file]
    rcases Release.mem_artifacts.1 mem with mem | rfl | rfl | ⟨-, rfl⟩
    · obtain ⟨e, isIn, rfl⟩ := Release.mem_productArtifacts.1 mem
      exact products e isIn
    · exact ofName Release.isPieceName_schema
    · exact ofName Release.isPieceName_manifest
    · exact ofName Release.isPieceName_checksums
  have place : s.versionDir r.tag = s.file (Version.dirName r.tag) :=
    versionDir_of_checked s checked
  unfold write
  rw [place]
  dsimp only
  refine (within_removeIfExists staging).bind fun _ => ?_
  refine Within.bind (.onFailure ?_ (within_removeTree staging)) fun _ => ?_
  · exact (within_createDirectories written onWayStaging).bind fun _ =>
      within_writeArtifacts written artifacts
  · refine (within_rename (root.join _) staging target).bind fun _ => ?_
    have latest : latestNames ⊆ usedNames r.tag := fun _ mem => by simp [usedNames, mem]
    exact (within_replaceLatest root own latest onWay _).onFailure (within_removeTree target)

variable {products : NameMap Dataset}
  (inProducts : ∀ e ∈ products.entries, inside (s.productPlace directory tag e.1))

include inProducts

theorem within_addLocked : (s.addLocked products tag).Within directory inside way := by
  refine (within_exists? _).bind fun taken => ?_
  cases taken with
  | true => exact within_throw _
  | false =>
    refine Within.bind (within_ofProgram (FileProgram.within_look .now rfl)) fun now => ?_
    refine within_ofOption_bind fun r made => ?_
    obtain ⟨v', -, rfl⟩ := Release.make?_eq_some.1 made
    exact (within_write root checked own onWay rfl inProducts).bind fun _ => within_pure _

theorem within_lockAndAdd : (s.lockAndAdd products tag).Within directory inside way := by
  have lock : inside (resolve directory (s.lockPath tag)) :=
    here_file own (by simp [usedNames]) (isPieceName_lock (Version.ofTag?_of_ofCheckedTag? checked))
  refine (Lock.within_take (root.join _) lock).bind fun locked => ?_
  cases locked with
  | false => exact (within_exists? _).bind fun taken => .ite (within_throw _) (within_throw _)
  | true =>
    exact (within_addLocked root checked own onWay inProducts).finallyDo (Lock.within_release lock)

theorem within_freeze : (s.freeze products tag).Within directory inside way := by
  rw [freeze_eq s products checked]
  refine Within.bind (within_createDirectories root fun q h => .inr (onWay q h)) fun _ => ?_
  refine (within_exists? _).bind fun taken => ?_
  cases taken with
  | true => exact within_throw _
  | false => exact within_lockAndAdd root checked own onWay inProducts

end Freeze

end Store

/-- At a place there is the same file in two worlds, or none in both. -/
def World.SameFile (w w' : World) (q : FilePlace) : Prop :=
  ∀ content time, w'.tree.get? q = some (.file content time) ↔
    w.tree.get? q = some (.file content time)

namespace Store

variable {s : Store} {products : NameMap Dataset} {tag : String} {w w' : World}
  {result : Except Fault Release}

/-- A tag that may not name a directory is refused before anything is done. -/
theorem freeze_invalid (h : Yields (s.freeze products tag) w result w')
    (invalid : Version.ofCheckedTag? tag = none) : result = .error (.invalidTag tag) ∧ w' = w := by
  unfold freeze at h
  rw [invalid] at h
  exact h.unique (yields_throw (.invalidTag tag) w).bind_error

/-- A product whose file lies below the directory into which it is written. -/
def StaysBelow (name : String) : Prop :=
  (FilePath.ofText (Release.productFile name)).isAbsolute = false ∧
    ".." ∉ (FilePath.ofText (Release.productFile name)).pieces

/-- The file of such a product is below the staging directory. -/
theorem owns_productPlace {v : Version} (tagged : Version.ofTag? tag = some v) {name : String}
    (below : StaysBelow name) :
    s.Owns w.directory (usedNames tag) (s.productPlace w.directory tag name) := by
  have hidden := isPieceName_staging tagged
  obtain ⟨rest, form⟩ : resolve w.directory (s.stagingPath tag) <+:
      followAll (resolve w.directory (s.stagingPath tag)) _ := followAll_below below.2
  refine ⟨"." ++ Version.dirName tag ++ ".staging", by simp [usedNames], rest, ?_⟩
  rw [productPlace, resolve_join below.1, ← form, stagingPath, file, resolve_child hidden,
    List.append_assoc, List.singleton_append]

/-- If the directory of a tag is there, adding a release under it creates at most directories on
the way to the store. -/
theorem kept_of_freeze_taken (proper : w.Proper) (root : s.root.IsWritten)
    (h : Yields (s.freeze products tag) w result w')
    (taken : w.tree.get? (resolve w.directory s.root ++ [Version.dirName tag]) ≠ none) :
    w.Kept (fun _ => False) (OnWay w.directory s.root) w' := by
  cases checked : Version.ofCheckedTag? tag with
  | none =>
    rw [(freeze_invalid h checked).2]
    exact .refl proper
  | some v =>
    have isName := isPieceName_dirName (Version.ofTag?_of_ofCheckedTag? checked)
    have within : (createDirectories s.root).Within w.directory (fun _ => False)
        (OnWay w.directory s.root) := within_createDirectories root fun q h => .inr h
    rw [freeze_eq s products checked] at h
    rcases Yields.bind_cases h with ⟨e, -, failed⟩ | ⟨_, w₁, created, h⟩
    · exact within.yields proper failed
    · have kept := within.yields proper created
      have still : w₁.tree.get? (resolve w.directory s.root ++ [Version.dirName tag]) ≠ none := by
        rcases kept.tree _ id with same | ⟨-, -, come⟩
        · rwa [get?_congr same]
        · rw [get?_eq (by simp), come]
          nofun
      have root : w₁.tree.get? (resolve w₁.directory s.root) = some .directory := by
        have standing := kept.proper.tree.standing_dropLast still
        rwa [List.dropLast_concat, ← kept.directory] at standing
      have placed := created.reaches root _ isName
      have asked := yields_exists? placed
      rw [kept.directory, Option.isSome_iff_ne_none.2 still] at asked
      rw [versionDir_of_checked _ checked] at h
      rw [(h.unique (asked.bind (yields_throw (.versionExists tag) w₁))).2]
      exact kept

/-- Adding a release changes no file but those of the entries that the store uses for it and those
to which the names of its products lead, in whatever state the files are and whatever fails. If
the names lead below the staging directory, the former are all; and if the directory of the tag
was there before, no file changes at all. -/
theorem freeze_keeps_files (root : String) (options : StoreOptions) (products : NameMap Dataset)
    (tag : String) {w : World} (proper : w.Proper) :
    let s : Store := ⟨root, options⟩
    let w' := ((s.freeze products tag).run.run w).2
    (∀ q, ¬ s.Owns w.directory (usedNames tag) q →
      (∀ e ∈ products.entries, q ≠ s.productPlace w.directory tag e.1) → w.SameFile w' q) ∧
    ((∀ e ∈ products.entries, StaysBelow e.1) →
      ∀ q, ¬ s.Owns w.directory (usedNames tag) q → w.SameFile w' q) ∧
    (w.tree.get? (resolve w.directory s.root ++ [Version.dirName tag]) ≠ none →
      ∀ q, w.SameFile w' q) := by
  intro s w'
  have written : s.root.IsWritten := FilePath.isWritten_ofText root
  have h : Yields (s.freeze products tag) w ((s.freeze products tag).run.run w).1 w' :=
    yields_run _ w
  have taken (isThere : w.tree.get? (resolve w.directory s.root ++ [Version.dirName tag]) ≠ none)
      (q : FilePlace) : w.SameFile w' q :=
    (kept_of_freeze_taken proper written h isThere).tree.get?_file id
  cases checked : Version.ofCheckedTag? tag with
  | none =>
    have same (q : FilePlace) : w.SameFile w' q := by
      rw [(freeze_invalid h checked).2]
      exact fun _ _ => .rfl
    exact ⟨fun q _ _ => same q, fun _ q _ => same q, taken⟩
  | some v =>
    have tagged := Version.ofTag?_of_ofCheckedTag? checked
    have within : (s.freeze products tag).Within w.directory
        (fun q => s.Owns w.directory (usedNames tag) q ∨
          ∃ e ∈ products.entries, q = s.productPlace w.directory tag e.1)
        (OnWay w.directory s.root) :=
      within_freeze written checked (fun q => .inl) (fun q => id) fun e mem =>
        .inr ⟨e, mem, rfl⟩
    have outside (q : FilePlace) (apart : ¬ s.Owns w.directory (usedNames tag) q)
        (others : ∀ e ∈ products.entries, q ≠ s.productPlace w.directory tag e.1) :
        w.SameFile w' q :=
      (within.yields proper h).tree.get?_file fun inside => inside.elim apart
        fun ⟨e, mem, same⟩ => others e mem same
    refine ⟨outside, fun below q apart => outside q apart fun e mem same => apart ?_, taken⟩
    exact same ▸ owns_productPlace tagged (below e mem)

/-- A tree with a store of one release. -/
def oneRelease : FileTree :=
  (((FileTree.empty.set ["products"] .directory).set ["products", "v1.0.0"] .directory).set
    ["products", "v1.0.0", "core.json"] (.file "one".toUTF8 0)).set
      ["products", "v1.0.0", "manifest.json"] (.file "listed".toUTF8 0)

theorem proper_oneRelease : oneRelease.Proper := by
  have store : IsPieceName "products" := by refine ⟨?_, ?_, ?_, ?_, ?_⟩ <;> decide
  have release : IsPieceName "v1.0.0" := by refine ⟨?_, ?_, ?_, ?_, ?_⟩ <;> decide
  have core : IsPieceName "core.json" := by refine ⟨?_, ?_, ?_, ?_, ?_⟩ <;> decide
  have root := Proper.empty.add (p := []) (e := .directory) rfl rfl store
  have directory := root.add (p := ["products"]) (e := .directory) rfl rfl release
  have first := directory.add (p := ["products", "v1.0.0"]) (e := .file "one".toUTF8 0) rfl rfl core
  exact first.add (p := ["products", "v1.0.0"]) rfl rfl Release.isPieceName_manifest

def oneReleaseWorld : World := ⟨oneRelease, [], 0, "", none⟩

/-- A product whose name leads out of the directory into which it is written. -/
def straying : NameMap Dataset :=
  .ofList [("../v1.0.0/core", ⟨"../v1.0.0/core", .plain, [], [], [], []⟩)]

def strayedWorld : World :=
  ((freeze ⟨"products", .standard⟩ straying "2.0.0").run.run oneReleaseWorld).2

/-- A file of an old release is overwritten, and the one beside it is not. -/
theorem freeze_keeps_files_straying :
    oneReleaseWorld.SameFile strayedWorld ["products", "v1.0.0", "manifest.json"] ∧
      ¬ oneReleaseWorld.SameFile strayedWorld ["products", "v1.0.0", "core.json"] := by
  let s : Store := ⟨"products", .standard⟩
  have proper : oneReleaseWorld.Proper := ⟨proper_oneRelease, nofun⟩
  have root : resolve oneReleaseWorld.directory s.root = ["products"] := by decide +kernel
  have place : s.productPlace oneReleaseWorld.directory "2.0.0" "../v1.0.0/core" =
      ["products", "v1.0.0", "core.json"] := by decide +kernel
  obtain ⟨others, -⟩ := freeze_keeps_files "products" .standard straying "2.0.0" proper
  refine ⟨others _ ?_ ?_, fun same => ?_⟩
  · rintro ⟨name, used, rest, same⟩
    rw [root] at same
    obtain ⟨-, same⟩ := List.cons.inj same
    obtain ⟨rfl, -⟩ := List.cons.inj same
    exact absurd used (by decide +kernel)
  · intro e mem
    rw [List.mem_singleton.1 mem, place]
    decide
  · have found := (same "one".toUTF8 0).2 rfl
    have size : (strayedWorld.tree.read ["products", "v1.0.0", "core.json"]).toOption.map
        ByteArray.size ≠ some 3 := by decide +kernel
    refine size ?_
    rw [FileTree.read, FileTree.find, found]
    rfl

end Store

end ProductSpec
