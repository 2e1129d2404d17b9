/-
  Adding a release is all or nothing: whatever single operation fails, the releases and the newest
  one are as they were, unless the release has been added as a whole.
-/
import ProductSpec.Proofs.Store.Newest

namespace ProductSpec

namespace Store

open FileAction FileTree

variable {s : Store} {d : FilePlace} {w w' : World} {n : Nat}

/-- The names under which a release of a tag is added. -/
def releaseNames (tag : String) : List String := [Version.dirName tag, latestName]

theorem forall_releaseNames {p : String → Prop} {tag : String} (h : p (Version.dirName tag))
    (newest : p latestName) : ∀ name ∈ releaseNames tag, p name :=
  List.forall_mem_cons.2 ⟨h, List.forall_mem_singleton.2 newest⟩

/-- The release of a tag has been added: under each name there are its files, and nothing else. -/
structure Added (s : Store) (d : FilePlace) (r : Release) (tree : FileTree) : Prop where
  named : ∀ a ∈ r.artifacts s.options, IsPieceName a.file
  folder : ∀ name ∈ releaseNames r.tag, tree.IsFolder (s.entry d name) (r.files s.options)

theorem write_eq (r : Release) {staging target : FilePath} (h : s.stagingPath r.tag = staging)
    (h' : s.versionDir r.tag = target) : s.write r = (do
      removeIfExists staging
      FileAction.onFailure (do
        createDirectories staging
        writeArtifacts staging (r.artifacts s.options)) (removeTree staging)
      rename staging target
      (s.replaceLatest target).onFailure (removeTree target)) := by
  subst h h'
  rfl

namespace Ready

variable (ready : s.Ready d w)

include ready

/-- A directory that holds the files of a release becomes that of its tag, and a copy of it the
newest release. -/
theorem publish_allOrNothing {r : Release} {v : Version} {staging : String} {x : Except Fault Unit}
    (few : n ≤ 1) (hidden : IsPieceName staging) (tagged : Version.ofTag? r.tag = some v)
    (others : ∀ name ∈ releaseNames r.tag, name ∉ [staging])
    (named : ∀ a ∈ r.artifacts s.options, IsPieceName a.file)
    (folder : w.tree.IsFolder (s.entry d staging) (r.files s.options))
    (free : w.tree.IsFree (s.entry d r.dirName))
    (h : Suffers (do
      rename (s.file staging) (s.file r.dirName)
      (s.replaceLatest (s.file r.dirName)).onFailure (removeTree (s.file r.dirName))) w x w' n) :
    AllOrNothing s d (releaseNames r.tag) (fun (_ : Unit) => s.Added d r) w w' x := by
  have target : IsPieceName r.dirName := isPieceName_dirName tagged
  have other : r.dirName ∉ latestNames := dirName_notMem_latestNames tagged
  have unlike : staging ≠ r.dirName := fun same =>
    others r.dirName List.mem_cons_self (same ▸ List.mem_cons_self)
  rcases h.bind_cases with ⟨e, rfl, failed⟩ | ⟨_, w₁, n₁, n₂, renamed, h₁, rfl⟩
  · rcases ready.rename_cases hidden target unlike failed with ⟨made, -⟩ | ⟨-, -, same⟩
    · cases made
    · exact .inr ⟨⟨e, rfl⟩, fun _ _ => same ▸ .refl _ _⟩
  rcases ready.rename_cases hidden target unlike renamed with
    ⟨-, rfl, moved, -⟩ | ⟨⟨_, made⟩, -⟩
  swap
  · cases made
  have touches₁ := ready.touches_rename hidden target renamed
  have folder₁ : w₁.tree.IsFolder (s.entry d r.dirName) (r.files s.options) := fun rest => by
    rw [moved rest]
    exact folder rest
  have newest : latestName ∉ [staging, r.dirName] := fun mem => by
    rcases List.mem_cons.1 mem with same | mem
    · exact others latestName (by simp [releaseNames]) (same ▸ List.mem_cons_self)
    · exact other (List.mem_singleton.1 mem ▸ by decide)
  rcases h₁.onFailure_cases with
    ⟨_, rfl, replaced⟩ | ⟨e, w₂, z, n₃, n₄, rfl, failed, undone, rfl⟩
  · have touches₂ := touches₁.ready.touches_replaceLatest replaced
    have copied := (touches₁.ready.replaceLatest_replaced (by omega) target other folder₁
      replaced).outcome.of_ok
    exact .inl ⟨(), rfl, named, forall_releaseNames (folder₁.congr (touches₂.same _ other)) copied⟩
  · obtain ⟨free', same⟩ :=
      touches₁.ready.rollback (by omega) target other folder₁ failed undone
    exact .inr ⟨⟨e, rfl⟩, forall_releaseNames (fun rest => (free' rest).trans (free rest).symm)
      ((touches₁.same _ newest).trans same)⟩

theorem write_allOrNothing {r : Release} {v : Version} {x : Except Fault Unit} (few : n ≤ 1)
    (tagged : Version.ofTag? r.tag = some v) (notLatest : r.tag ≠ latestName)
    (entryNames : ∀ a ∈ r.artifacts s.options, IsEntryName a.file)
    (free : w.tree.IsFree (s.entry d r.dirName)) (h : Suffers (s.write r) w x w' n) :
    AllOrNothing s d (releaseNames r.tag) (fun (_ : Unit) => s.Added d r) w w' x := by
  have hidden := isPieceName_staging tagged
  have unlike := dirName_ne_hidden tagged (Version.dirName r.tag) ".staging"
  have notNewest := hidden_notMem_latestNames tagged ".staging"
  have stagingPath : s.stagingPath r.tag =
      s.file ("." ++ Version.dirName r.tag ++ ".staging") := rfl
  rw [write_eq r stagingPath (versionDir_of_ne s notLatest)] at h
  generalize "." ++ Version.dirName r.tag ++ ".staging" = staging at hidden unlike notNewest h
  have others : ∀ name ∈ releaseNames r.tag, name ∉ [staging] :=
    forall_releaseNames (by simpa using unlike) fun mem =>
      notNewest (List.mem_singleton.1 mem ▸ by decide)
  rcases h.bind_cases with ⟨e, rfl, failed⟩ | ⟨_, w₁, n₁, n₂, cleared, h₁, rfl⟩
  · exact .inr ⟨⟨e, rfl⟩, (ready.touches_removeIfExists hidden failed).keeps others⟩
  have touches₁ := ready.touches_removeIfExists hidden cleared
  obtain ⟨-, rfl, empty⟩ := (ready.removeIfExists_cases hidden cleared).resolve_right
    fun failed => nomatch failed.1
  refine .after (touches₁.keeps others) ?_
  rcases h₁.bind_cases with ⟨e, rfl, failed⟩ | ⟨_, w₂, n₃, n₄, filled, h₂, rfl⟩
  · rcases failed.onFailure_cases with ⟨_, made, -⟩ | ⟨_, w₂, z, n₁, n₂, -, failed, undone, -⟩
    · cases made
    · obtain ⟨touches₂, -⟩ := touches₁.ready.fill_cases hidden entryNames empty failed
      have touches₃ := touches₂.trans (touches₂.ready.touches_removeTree hidden undone)
      exact .inr ⟨⟨e, rfl⟩, touches₃.keeps others⟩
  · rcases filled.onFailure_cases with ⟨_, -, filled⟩ | ⟨_, _, _, _, _, made, -⟩
    · obtain ⟨touches₂, folder⟩ := touches₁.ready.fill_cases hidden entryNames empty filled
      obtain ⟨named, folder⟩ := folder rfl
      have keeps := others _ List.mem_cons_self
      have free₂ := (free.congr (touches₁.same _ keeps)).congr (touches₂.same _ keeps)
      exact .after (touches₂.keeps others)
        (touches₂.ready.publish_allOrNothing (by omega) hidden tagged others named folder free₂ h₂)
    · cases made

end Ready

end Store

namespace IsProductName

variable {name : String}

theorem noZero_of_productFile (noZero : '\x00' ∉ (Release.productFile name).toList) :
    '\x00' ∉ name.toList := fun mem =>
  noZero (by simp [Release.productFile, mem])

theorem isEntryName (h : IsProductName name) : Store.IsEntryName (Release.productFile name) :=
  ⟨by simp [Release.productFile, h.noSlash], fun noZero =>
    Release.isPieceName_productFile ⟨h, noZero_of_productFile noZero⟩⟩

/-- The file of such a product is in the directory into which it is written. -/
theorem staysBelow (h : IsProductName name) : Store.StaysBelow name := by
  have noSlash : '/' ∉ (Release.productFile name).toList := h.isEntryName.1
  rw [Store.StaysBelow, FilePath.ofText_of_noSlash noSlash]
  refine ⟨by simp [FilePath.isAbsolute], fun mem => ?_⟩
  have same := congrArg (fun s => s.toList.getLast?) (List.mem_singleton.1 mem)
  simp [Release.productFile] at same

end IsProductName

namespace Store

open FileAction FileTree

variable {s : Store} {d : FilePlace} {w w' : World} {n : Nat} {r : Release}
  {products : NameMap Dataset} {tag : String} {v : Version} {x : Except Fault Release}

theorem isEntryName_artifact (names : ∀ e ∈ r.products.entries, IsProductName e.1)
    {a : Release.Artifact} (h : a ∈ r.artifacts s.options) : IsEntryName a.file := by
  rcases Release.mem_artifacts.1 h with h | rfl | rfl | ⟨-, rfl⟩
  · obtain ⟨e, mem, rfl⟩ := Release.mem_productArtifacts.1 h
    exact (names e mem).isEntryName
  · exact .of_isPieceName Release.isPieceName_schema
  · exact .of_isPieceName Release.isPieceName_manifest
  · exact .of_isPieceName Release.isPieceName_checksums

/-- The products of a release that has been added have plain names. -/
theorem Added.hasPlainNames {tree : FileTree} (h : s.Added d r tree)
    (names : ∀ e ∈ r.products.entries, IsProductName e.1) : r.HasPlainNames := fun e mem =>
  ⟨names e mem, IsProductName.noZero_of_productFile (h.named _
    (Release.mem_artifacts.2 (.inl (Release.mem_productArtifacts.2 ⟨e, mem, rfl⟩)))).noZero⟩

theorem Added.congr {tree tree' : FileTree} (h : s.Added d r tree)
    (same : ∀ name ∈ releaseNames r.tag, tree.SameBranch tree' (s.entry d name)) :
    s.Added d r tree' :=
  ⟨h.named, fun name mem => (h.folder name mem).congr (same name mem)⟩

/-- The release of products under a tag has been added. -/
def AddedNew (s : Store) (d : FilePlace) (products : NameMap Dataset) (tag : String) (r : Release)
    (tree : FileTree) : Prop :=
  (∃ now, Release.make? tag products now = some r) ∧ s.Added d r tree

theorem AddedNew.congr {tree tree' : FileTree} (h : s.AddedNew d products tag r tree)
    (same : ∀ name ∈ releaseNames tag, tree.SameBranch tree' (s.entry d name)) :
    s.AddedNew d products tag r tree' := by
  obtain ⟨⟨now, made⟩, added⟩ := h
  obtain ⟨v, -, form⟩ := Release.make?_eq_some.1 made
  obtain rfl : r.tag = tag := by rw [form]
  exact ⟨⟨now, made⟩, added.congr same⟩

theorem Ready.addLocked_allOrNothing (ready : s.Ready d w) (few : n ≤ 1)
    (checked : Version.ofCheckedTag? tag = some v)
    (names : ∀ e ∈ products.entries, IsProductName e.1)
    (h : Suffers (s.addLocked products tag) w x w' n) :
    AllOrNothing s d (releaseNames tag) (s.AddedNew d products tag) w w' x := by
  have tagged := Version.ofTag?_of_ofCheckedTag? checked
  have notLatest := ne_latest_of_ofCheckedTag? checked
  have target := isPieceName_dirName tagged
  have failed {e : Fault} (same : w' = w) :
      AllOrNothing s d (releaseNames tag) (s.AddedNew d products tag) w w' (.error e) :=
    .inr ⟨⟨e, rfl⟩, fun _ _ => same ▸ .refl _ _⟩
  rw [addLocked, versionDir_of_ne s notLatest] at h
  rcases h.bind_cases with ⟨e, rfl, asked⟩ | ⟨taken, w₁, n₁, n₂, asked, h₁, rfl⟩
  · cases (ready.exists?_cases target asked).2.2
  obtain ⟨rfl, rfl, found⟩ := ready.exists?_cases target asked
  cases taken with
  | true =>
    obtain ⟨rfl, same⟩ := h₁.yields.unique (yields_throw (.versionExists tag) w)
    exact failed same
  | false =>
    have absent : w.tree.get? (s.entry d (Version.dirName tag)) = none := by
      simpa using (Except.ok.inj found).symm
    have free := ready.proper.tree.isFree Ready.entry_ne_nil absent
    rcases h₁.bind_cases with ⟨e, rfl, told⟩ | ⟨now, w₂, n₃, n₄, told, h₂, rfl⟩
    · obtain ⟨_, -, made, -⟩ := told.ofProgram_cases
      cases made
    obtain ⟨_, ran, -, -⟩ := told.ofProgram_cases
    obtain rfl : w = w₂ := (Prod.mk.inj ran).2
    rcases h₂.bind_cases with ⟨e, rfl, none⟩ | ⟨r, w₃, n₅, n₆, some, h₃, rfl⟩
    · exact failed (none.yields.unique (yields_ofOption _ _ _)).2
    obtain ⟨made, rfl⟩ := some.yields.ofOption_ok
    obtain ⟨v', -, form⟩ := Release.make?_eq_some.1 made
    obtain rfl : r.tag = tag := by rw [form]
    obtain rfl : r.products = products := by rw [form]
    have outcome {x : Except Fault Unit} {w' : World} {n : Nat} (few : n ≤ 1)
        (h : Suffers (s.write r) w x w' n) :=
      ready.write_allOrNothing few tagged notLatest (fun _ => isEntryName_artifact names) free h
    rcases h₃.bind_cases with ⟨e, rfl, failed⟩ | ⟨_, w₄, n₇, n₈, written, done, rfl⟩
    · exact .inr ⟨⟨e, rfl⟩, (outcome (by omega) failed).of_error⟩
    · obtain ⟨rfl, rfl⟩ := done.yields.unique (yields_pure r w₄)
      exact .inl ⟨r, rfl, ⟨now, made⟩, (outcome (by omega) written).of_ok⟩

/-- The same with the lock given back. -/
theorem Ready.released_allOrNothing (ready : s.Ready d w) (few : n ≤ 1) {lock : String}
    (isName : IsPieceName lock) (others : ∀ name ∈ releaseNames tag, name ∉ [lock])
    (checked : Version.ofCheckedTag? tag = some v)
    (names : ∀ e ∈ products.entries, IsProductName e.1)
    (h : Suffers ((s.addLocked products tag).finallyDo (Lock.release (s.file lock))) w x w' n) :
    AllOrNothing s d (releaseNames tag) (s.AddedNew d products tag) w w' x := by
  obtain ⟨w₁, z, n₁, n₂, added, released, rfl⟩ := h.finallyDo_cases
  have outcome := ready.addLocked_allOrNothing (by omega) checked names added
  have adding : (s.addLocked products tag).Within d (s.Owns d (usedNames tag)) (OnWay d s.root) :=
    within_addLocked ready.written checked (fun _ => id) (fun _ => id) fun e mem => by
      rw [← ready.directory]
      exact owns_productPlace (Version.ofTag?_of_ofCheckedTag? checked) (names e mem).staysBelow
  have touches := (ready.touches adding added).ready.touches_release isName released
  exact outcome.before (touches.keeps others) fun r new => new.congr (touches.keeps others)

/-- The same with the lock taken before, in a directory that can be reached if it is there. -/
theorem lockAndAdd_allOrNothing (proper : w.Proper) (written : s.root.IsWritten)
    (apart : s.LiesApart w.directory) (few : n ≤ 1) (checked : Version.ofCheckedTag? tag = some v)
    (names : ∀ e ∈ products.entries, IsProductName e.1)
    (reaches : w.tree.get? (resolve w.directory s.root) = some .directory → w.Reaches s.root)
    (h : Suffers (s.lockAndAdd products tag) w x w' n) :
    AllOrNothing s w.directory (releaseNames tag) (s.AddedNew w.directory products tag) w w' x := by
  have tagged := Version.ofTag?_of_ofCheckedTag? checked
  have hidden := isPieceName_lock tagged
  have unlike := dirName_ne_hidden tagged (Version.dirName tag) ".lock"
  have notNewest := hidden_notMem_latestNames tagged ".lock"
  have lockPath : s.lockPath tag = s.file ("." ++ Version.dirName tag ++ ".lock") := rfl
  unfold lockAndAdd at h
  rw [lockPath] at h
  generalize "." ++ Version.dirName tag ++ ".lock" = lock at hidden unlike notNewest h
  have others : ∀ name ∈ releaseNames tag, name ∉ [lock] :=
    forall_releaseNames (by simpa using unlike) fun mem =>
      notNewest (List.mem_singleton.1 mem ▸ by decide)
  have taking : (Lock.take (s.file lock)).Within w.directory (s.Owns w.directory [lock])
      (OnWay w.directory s.root) :=
    Lock.within_take (written.join _) (here_file (fun _ => id) List.mem_cons_self hidden)
  have still {y : Except Fault Bool} {w₁ : World} (took : Yields (Lock.take (s.file lock)) w y w₁) :
      ∀ name ∈ releaseNames tag, w.tree.SameBranch w₁.tree (s.entry w.directory name) :=
    fun name mem => apart.sameBranch (taking.yields proper took) (others name mem)
  rcases h.bind_cases with ⟨e, rfl, failed⟩ | ⟨locked, w₁, n₁, n₂, took, h₁, rfl⟩
  · exact .inr ⟨⟨e, rfl⟩, still failed.yields⟩
  cases locked with
  | false =>
    obtain ⟨taken, h₂⟩ := h₁.exists?_bind
    cases taken with
    | true =>
      obtain ⟨rfl, rfl⟩ := h₂.yields.unique (yields_throw _ w₁)
      exact .inr ⟨⟨_, rfl⟩, still took.yields⟩
    | false =>
      obtain ⟨rfl, rfl⟩ := h₂.yields.unique (yields_throw _ w₁)
      exact .inr ⟨⟨_, rfl⟩, still took.yields⟩
  | true =>
    have directory := Lock.isDirectory_of_take proper (written.join _) took.yields
    rw [resolve_child hidden, List.dropLast_concat] at directory
    have ready : s.Ready w.directory w := ⟨proper, rfl, written, apart, reaches directory⟩
    exact .after (still took.yields) ((ready.touches taking took).ready.released_allOrNothing
      (by omega) hidden others checked names h₁)

theorem freeze_allOrNothing (proper : w.Proper) (written : s.root.IsWritten)
    (apart : s.LiesApart w.directory) (few : n ≤ 1) (checked : Version.ofCheckedTag? tag = some v)
    (names : ∀ e ∈ products.entries, IsProductName e.1)
    (h : Suffers (s.freeze products tag) w x w' n) :
    AllOrNothing s w.directory (releaseNames tag) (s.AddedNew w.directory products tag) w w' x := by
  have creating : (createDirectories s.root).Within w.directory (s.Owns w.directory [])
      (OnWay w.directory s.root) := within_createDirectories written fun q => .inr
  have still {y : Except Fault Unit} {w₁ : World}
      (created : Yields (createDirectories s.root) w y w₁) :
      ∀ name ∈ releaseNames tag, w.tree.SameBranch w₁.tree (s.entry w.directory name) :=
    fun name _ => apart.sameBranch (creating.yields proper created) List.not_mem_nil
  rw [freeze_eq s products checked] at h
  rcases h.bind_cases with ⟨e, rfl, failed⟩ | ⟨_, w₁, n₁, n₂, created, h₁, rfl⟩
  · exact .inr ⟨⟨e, rfl⟩, still failed.yields⟩
  obtain ⟨taken, h₂⟩ := h₁.exists?_bind
  cases taken with
  | true =>
    obtain ⟨rfl, rfl⟩ := h₂.yields.unique (yields_throw (.versionExists tag) w₁)
    exact .inr ⟨⟨_, rfl⟩, still created.yields⟩
  | false =>
    have kept := creating.yields proper created.yields
    have outcome := lockAndAdd_allOrNothing kept.proper written (kept.directory ▸ apart)
      (by omega) checked names created.yields.reaches h₂
    rw [kept.directory] at outcome
    exact .after (still created.yields) outcome

/-- At a place there is a directory with some files of a release and nothing else. -/
structure HoldsJust (tree : FileTree) (q : FilePlace) (artifacts : List Release.Artifact) :
    Prop where
  directory : tree.get? q = some .directory
  present : ∀ a ∈ artifacts, ∃ time,
    tree.get? (q ++ [a.file]) = some (.file a.content.toUTF8 time)
  only : ∀ rest, rest ≠ [] → tree.get? (q ++ rest) ≠ none → ∃ a ∈ artifacts, rest = [a.file]

theorem holdsJust_of_isFolder {tree : FileTree} {name : String}
    (folder : tree.IsFolder (s.entry d name) (r.files s.options)) (plain : r.HasPlainNames) :
    HoldsJust tree (s.entry d name) (r.artifacts s.options) := by
  refine ⟨folder.get? Ready.entry_ne_nil, fun a mem =>
    folder.get?_file Ready.entry_ne_nil (Release.files_eq_some plain mem),
    fun rest filled found => ?_⟩
  have shape := folder.map_get? Ready.entry_ne_nil rest
  match rest with
  | [] => exact absurd rfl filled
  | [name'] =>
    by_contra missing
    have notMem : name' ∉ (r.artifacts s.options).map Release.Artifact.file := fun mem => by
      obtain ⟨a, isIn, rfl⟩ := List.mem_map.1 mem
      exact missing ⟨a, isIn, rfl⟩
    rw [Item.shapeAt, Release.files, Release.foldl_put_of_notMem notMem] at shape
    exact found (Option.map_eq_none_iff.1 shape)
  | _ :: _ :: _ => exact absurd (Option.map_eq_none_iff.1 shape) found

/-- An entry of a store is what it was, with everything in it. -/
def KeepsEntry (s : Store) (w w' : World) (name : String) : Prop :=
  ∀ rest, w'.tree.get? (s.entry w.directory name ++ rest) =
    w.tree.get? (s.entry w.directory name ++ rest)

/-- Of the names that are used for a release, only those under which it is added are not hidden. -/
theorem mem_releaseNames {name : String} (used : name ∈ usedNames tag)
    (visible : name.toList.head? ≠ some '.') : name ∈ releaseNames tag := by
  simp only [usedNames, latestNames, List.mem_cons, List.not_mem_nil, or_false] at used
  rcases used with rfl | rfl | rfl | rfl | rfl | rfl | rfl
  · exact List.mem_cons_self
  · exact absurd (head?_hidden _ _) visible
  · exact absurd (head?_hidden _ _) visible
  · exact absurd rfl visible
  · exact absurd rfl visible
  · exact absurd rfl visible
  · exact List.mem_cons_of_mem _ List.mem_cons_self

/-- Adding a release is all or nothing, in whatever state the files are and whatever single
operation fails, as long as the way to the store does not lead through one of its own entries, as
`products/latest/..` does. After a failure every entry of the store that is not hidden is what it
was, and none has come. After a success just the files of the release are in the directory of its tag, and
just the same in that of the newest release, and every other entry that is not hidden is what it
was. -/
theorem freeze_all_or_nothing {root : String} {options : StoreOptions}
    {products : NameMap Dataset} {tag : String} {w w' : World} {result : Except Fault Release}
    (proper : w.Proper) (apart : LiesApart ⟨root, options⟩ w.directory)
    (names : ∀ e ∈ products.entries, IsProductName e.1)
    (few : (freeze ⟨root, options⟩ products tag).failures w ≤ 1)
    (h : Yields (freeze ⟨root, options⟩ products tag) w result w') :
    let s : Store := ⟨root, options⟩
    (∀ e, result = .error e → ∀ name, name.toList.head? ≠ some '.' → s.KeepsEntry w w' name) ∧
    ∀ r, result = .ok r → (∃ now, Release.make? tag products now = some r) ∧
      (∀ name ∈ releaseNames tag,
        HoldsJust w'.tree (s.entry w.directory name) (r.artifacts options)) ∧
      ∀ name, name.toList.head? ≠ some '.' → name ∉ releaseNames tag → s.KeepsEntry w w' name := by
  intro s
  have written : s.root.IsWritten := FilePath.isWritten_ofText root
  cases checked : Version.ofCheckedTag? tag with
  | none =>
    obtain ⟨rfl, rfl⟩ := freeze_invalid h checked
    exact ⟨fun _ _ _ _ _ => rfl, nofun⟩
  | some v =>
    have tagged := Version.ofTag?_of_ofCheckedTag? checked
    have outcome := freeze_allOrNothing proper written apart few checked names ⟨h, rfl⟩
    have within : (s.freeze products tag).Within w.directory
        (s.Owns w.directory (usedNames tag)) (OnWay w.directory s.root) :=
      within_freeze written checked (fun _ => id) (fun _ => id) fun e mem =>
        owns_productPlace tagged (names e mem).staysBelow
    have kept := within.yields proper h
    have others (name : String) (visible : name.toList.head? ≠ some '.')
        (other : name ∉ releaseNames tag) : s.KeepsEntry w w' name :=
      (apart.sameBranch kept fun used => other (mem_releaseNames used visible)).get?
    refine ⟨?_, ?_⟩
    · rintro e rfl name visible
      by_cases mem : name ∈ releaseNames tag
      · exact (outcome.of_error name mem).get?
      · exact others name visible mem
    · rintro r rfl
      obtain ⟨⟨now, made⟩, added⟩ := outcome.of_ok
      obtain ⟨v, -, form⟩ := Release.make?_eq_some.1 made
      obtain rfl : r.tag = tag := by rw [form]
      obtain rfl : r.products = products := by rw [form]
      exact ⟨⟨now, made⟩, fun name mem =>
        holdsJust_of_isFolder (added.folder name mem) (added.hasPlainNames names), others⟩

/-- The disk is full when the copy of a new release is to become the newest one. -/
def fullWorld : World :=
  ⟨oneRelease.set ["products", "latest"] .directory, [], 0, "", some (18, .system "disk full")⟩

def coreProducts : NameMap Dataset := .ofList [("core", ⟨"core", .plain, [], [], [], []⟩)]

theorem freeze_all_or_nothing_diskFull :
    (∃ e w', Yields (freeze ⟨"products", .standard⟩ coreProducts "2.0.0") fullWorld (.error e) w' ∧
      w'.tree.get? ["products", "v2.0.0"] = none ∧
      w'.tree.get? ["products", "latest"] = some .directory) ∧
    ∃ r w', Yields (freeze ⟨"products", .standard⟩ coreProducts "2.0.0") fullWorld.calm (.ok r) w' ∧
      HoldsJust w'.tree ["products", "latest"] (r.artifacts .standard) := by
  let s : Store := ⟨"products", .standard⟩
  have proper : fullWorld.Proper :=
    ⟨proper_oneRelease.add (p := ["products"]) rfl rfl isPieceName_latest, nofun⟩
  have apart (w : World) : s.LiesApart w.directory := liesApart_of_straight _ (by decide +kernel)
  have root : resolve [] s.root = ["products"] := by decide +kernel
  have names : ∀ e ∈ coreProducts.entries, IsProductName e.1 := fun e mem =>
    List.mem_singleton.1 mem ▸ ⟨by decide, by decide, by decide, by decide, by decide⟩
  constructor
  · have few : (freeze s coreProducts "2.0.0").failures fullWorld ≤ 1 := by decide +kernel
    have failed : ((freeze s coreProducts "2.0.0").run.run fullWorld).1.toOption.isSome =
        false := by decide +kernel
    have h := yields_run (freeze s coreProducts "2.0.0") fullWorld
    generalize ((freeze s coreProducts "2.0.0").run.run fullWorld) = outcome at failed h
    obtain ⟨result, w'⟩ := outcome
    cases result with
    | ok => cases failed
    | error e =>
      obtain ⟨unchanged, -⟩ := freeze_all_or_nothing proper (apart _) names few h
      have release := unchanged e rfl "v2.0.0" (by decide) []
      have newest := unchanged e rfl "latest" (by decide) []
      rw [Store.entry, show resolve fullWorld.directory _ = _ from root] at release newest
      exact ⟨e, w', h, release, newest⟩
  · have few : (freeze s coreProducts "2.0.0").failures fullWorld.calm ≤ 1 := by decide +kernel
    have succeeds : ((freeze s coreProducts "2.0.0").run.run fullWorld.calm).1.toOption.isSome =
        true := by decide +kernel
    have h := yields_run (freeze s coreProducts "2.0.0") fullWorld.calm
    generalize ((freeze s coreProducts "2.0.0").run.run fullWorld.calm) = outcome at succeeds h
    obtain ⟨result, w'⟩ := outcome
    cases result with
    | error => cases succeeds
    | ok r =>
      have calm : fullWorld.calm.Proper := ⟨proper.tree, proper.named⟩
      obtain ⟨-, added⟩ := freeze_all_or_nothing calm (apart _) names few h
      have newest := (added r rfl).2.1 latestName (List.mem_cons_of_mem _ List.mem_cons_self)
      rw [Store.entry, show resolve fullWorld.calm.directory _ = _ from root] at newest
      exact ⟨r, w', h, newest⟩

end Store

end ProductSpec
