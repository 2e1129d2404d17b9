/-
  What is in the directory of a release after it has been added: each of its files as it was
  written, wherever the way to the store leads and whatever operation was refused meanwhile.
-/
import ProductSpec.Proofs.Store.Atomic

namespace ProductSpec

open FileAction FileTree

namespace World

/-- At a place there is a file. -/
def Holds (w : World) (q : FilePlace) (content : ByteArray) : Prop :=
  ∃ time, w.tree.get? q = some (.file content time)

/-- The files of a directory are there, whatever else is in it. -/
def HasFiles (w : World) (q : FilePlace) (files : String → Option ByteArray) : Prop :=
  ∀ name content, files name = some content → w.Holds (q ++ [name]) content

variable {w w' : World} {q : FilePlace} {inside way : FilePlace → Prop} {content : ByteArray}
  {files : String → Option ByteArray}

theorem Holds.unique {content' : ByteArray} (h : w.Holds q content) (h' : w.Holds q content') :
    content = content' := by
  obtain ⟨_, found⟩ := h
  obtain ⟨_, found'⟩ := h'
  cases found.symm.trans found'
  rfl

theorem Holds.kept (h : w.Holds q content) (kept : w.Kept inside way w') (outside : ¬ inside q) :
    w'.Holds q content := by
  obtain ⟨time, found⟩ := h
  exact ⟨time, (kept.tree.get?_file outside content time).2 found⟩

theorem HasFiles.kept (h : w.HasFiles q files) (kept : w.Kept inside way w')
    (outside : ∀ rest, ¬ inside (q ++ rest)) : w'.HasFiles q files := fun name content isIn =>
  (h name content isIn).kept kept (outside [name])

/-- A file is put into a directory. -/
theorem HasFiles.put (h : w.HasFiles q files) {name : String} {time : Int}
    (put : w'.tree = w.tree.set (q ++ [name]) (.file content time)) :
    w'.HasFiles q (Function.update files name (some content)) := by
  intro other content' isIn
  have filled : q ++ [name] ≠ [] := by simp
  rw [Function.update_apply] at isIn
  unfold Holds
  rw [put, get?_set filled]
  simp only [List.append_cancel_left_eq, List.cons.injEq, and_true]
  split_ifs at isIn ⊢ with same
  · cases isIn
    exact ⟨time, rfl⟩
  · exact h other content' isIn

end World

namespace Store

variable {s : Store} {d : FilePlace} {w w' : World} {a b : String}
  {files : String → Option ByteArray}

/-- What a store has in one entry is outside of the other ones. -/
theorem notOwns_entry {names : List String} (other : a ∉ names) (rest : List String) :
    ¬ s.Owns d names (s.entry d a ++ rest) := by
  rintro ⟨name, mem, rest', same⟩
  rw [entry, List.append_assoc, List.singleton_append] at same
  obtain ⟨rfl, -⟩ := List.cons.inj (List.append_cancel_left same)
  exact other mem

/-- The files that have been written into an entry of a store are there. -/
theorem hasFiles_writeArtifacts {artifacts : List Release.Artifact} (isName : IsPieceName a)
    (entryNames : ∀ x ∈ artifacts, IsEntryName x.file)
    (before : w.HasFiles (s.entry w.directory a) files)
    (h : Yields (writeArtifacts (s.file a) artifacts) w (.ok ()) w') :
    (∀ x ∈ artifacts, IsPieceName x.file) ∧
      w'.HasFiles (s.entry w.directory a) (artifacts.foldl Release.Artifact.put files) := by
  induction artifacts generalizing w files with
  | nil =>
    obtain ⟨-, rfl⟩ := h.unique (yields_pure () w)
    exact ⟨nofun, before⟩
  | cons x rest ih =>
    rw [List.forall_mem_cons] at entryNames ⊢
    obtain ⟨_, w₁, written, onward⟩ := h.bind_ok
    obtain ⟨-, -, effect⟩ | ⟨⟨_, failed⟩, -⟩ := Suffers.writeText_cases ⟨written, rfl⟩
    swap
    · cases failed
    obtain ⟨q, placed, form⟩ : ∃ q, w.Places ((s.file a).join x.file) q ∧
        w₁.tree = w.tree.set q (.file x.content.toUTF8 w.clock) := by
      generalize w₁.tree = tree at effect
      cases effect with
      | look looks => cases looks
      | write placed => exact ⟨_, placed, rfl⟩
    obtain ⟨piece, rfl⟩ := isPieceName_of_places entryNames.1 isName placed
    have after := before.put form
    rw [← written.directory] at after ⊢
    obtain ⟨pieces, all⟩ := ih entryNames.2 after onward
    exact ⟨⟨piece, pieces⟩, all⟩

/-- What is in a renamed entry of a store is in the new one. -/
theorem hasFiles_rename (proper : w.Proper) (isName : IsPieceName a) (isName' : IsPieceName b)
    (unlike : a ≠ b) (before : w.HasFiles (s.entry w.directory a) files)
    (h : Yields (rename (s.file a) (s.file b)) w (.ok ()) w') :
    w'.HasFiles (s.entry w.directory b) files := by
  obtain ⟨-, -, effect⟩ | ⟨⟨_, failed⟩, -⟩ := Suffers.rename_cases ⟨h, rfl⟩
  swap
  · cases failed
  have place {c : String} {q : FilePlace} (isName : IsPieceName c) (placed : w.Places (s.file c) q) :
      q = s.entry w.directory c := (place_eq_resolve placed).trans (resolve_child isName)
  intro name content isIn
  obtain ⟨time, found⟩ := before name content isIn
  refine ⟨time, ?_⟩
  generalize w'.tree = tree at effect
  cases effect with
  | look looks => cases looks
  | stay placed placed' =>
    have same := (place isName placed).symm.trans (place isName' placed')
    exact absurd (by simpa [entry] using same) unlike
  | rename placed placed' _ apart checked =>
    obtain rfl := place isName placed
    obtain rfl := place isName' placed'
    rw [get?_eq (by simp)] at found ⊢
    rwa [proper.tree.entriesAt_rename_target apart checked]

variable {r : Release} {tag : String} {v : Version}

/-- A directory that becomes that of a tag, and of which the newest release becomes a copy, is
there with its files. -/
theorem hasFiles_publish (proper : w.Proper) (root : s.root.IsWritten) (isName : IsPieceName a)
    (tagged : Version.ofTag? tag = some v) (unlike : a ≠ Version.dirName tag)
    (before : w.HasFiles (s.entry w.directory a) files)
    (h : Yields (do
      rename (s.file a) (s.file (Version.dirName tag))
      (s.replaceLatest (s.file (Version.dirName tag))).onFailure
        (removeTree (s.file (Version.dirName tag)))) w (.ok ()) w') :
    w'.HasFiles (s.entry w.directory (Version.dirName tag)) files := by
  have target := isPieceName_dirName tagged
  have moving : (rename (s.file a) (s.file (Version.dirName tag))).Within w.directory
      (s.Owns w.directory [a, Version.dirName tag]) (OnWay w.directory s.root) :=
    within_rename (root.join _) (inside_file (fun _ => id) List.mem_cons_self isName)
      (inside_file (fun _ => id) (List.mem_cons_of_mem _ List.mem_cons_self) target)
  obtain ⟨_, w₁, moved, onward⟩ := h.bind_ok
  obtain ⟨_, -, replaced⟩ | ⟨_, _, _, failed, -⟩ := onward.onFailure_cases
  swap
  · cases failed
  have kept := moving.yields proper moved
  have replacing : (s.replaceLatest (s.file (Version.dirName tag))).Within w₁.directory
      (s.Owns w₁.directory latestNames) (OnWay w₁.directory s.root) :=
    within_replaceLatest root (fun _ => id) (fun _ => id) (fun _ => id) _
  have there := hasFiles_rename proper isName target unlike before moved
  rw [← kept.directory] at there ⊢
  exact there.kept (replacing.yields kept.proper replaced)
    (notOwns_entry (dirName_notMem_latestNames tagged))

/-- A release that has been written is there with all its files. -/
theorem hasFiles_write (proper : w.Proper) (root : s.root.IsWritten)
    (checked : Version.ofCheckedTag? r.tag = some v)
    (entryNames : ∀ x ∈ r.artifacts s.options, IsEntryName x.file)
    (h : Yields (s.write r) w (.ok ()) w') :
    (∀ x ∈ r.artifacts s.options, IsPieceName x.file) ∧
      w'.HasFiles (s.entry w.directory r.dirName) (r.files s.options) := by
  have tagged := Version.ofTag?_of_ofCheckedTag? checked
  have hidden := isPieceName_staging tagged
  have unlike := dirName_ne_hidden tagged (Version.dirName r.tag) ".staging"
  have stagingPath : s.stagingPath r.tag =
      s.file ("." ++ Version.dirName r.tag ++ ".staging") := rfl
  rw [write_eq r stagingPath (versionDir_of_checked s checked)] at h
  generalize "." ++ Version.dirName r.tag ++ ".staging" = staging at hidden unlike h
  have all : ∀ rest, s.Owns w.directory [staging] (resolve w.directory (s.file staging) ++ rest) :=
    inside_file (fun _ => id) List.mem_cons_self hidden
  have removing : (removeIfExists (s.file staging)).Within w.directory
      (s.Owns w.directory [staging]) (OnWay w.directory s.root) := within_removeIfExists all
  have creating : (createDirectories (s.file staging)).Within w.directory
      (s.Owns w.directory [staging]) (OnWay w.directory s.root) :=
    within_createDirectories (root.join _)
      (onWay_file (fun _ => id) (fun _ => id) List.mem_cons_self hidden)
  have writing : (writeArtifacts (s.file staging) (r.artifacts s.options)).Within w.directory
      (s.Owns w.directory [staging]) (OnWay w.directory s.root) :=
    within_writeArtifacts (root.join _) fun x mem => owns_inner hidden (entryNames x mem)
  obtain ⟨_, w₁, removed, h⟩ := h.bind_ok
  obtain ⟨_, w₃, filled, published⟩ := Yields.bind_ok h
  obtain ⟨_, -, filled⟩ | ⟨_, _, _, failed, -⟩ := filled.onFailure_cases
  swap
  · cases failed
  obtain ⟨_, w₂, created, written⟩ := filled.bind_ok
  have kept₂ := (removing.yields proper removed).yields creating created
  have kept₃ := kept₂.yields writing written
  have empty : w₂.HasFiles (s.entry w₂.directory staging) fun _ => none := nofun
  obtain ⟨pieces, staged⟩ := hasFiles_writeArtifacts hidden entryNames empty written
  rw [kept₂.directory, ← kept₃.directory] at staged
  rw [← kept₃.directory]
  exact ⟨pieces, hasFiles_publish kept₃.proper root hidden tagged unlike.symm staged published⟩

variable {products : NameMap Dataset}

/-- What is added while the lock is held is there with all its files. -/
theorem hasFiles_addLocked (proper : w.Proper) (root : s.root.IsWritten)
    (checked : Version.ofCheckedTag? tag = some v)
    (names : ∀ e ∈ products.entries, IsProductName e.1)
    (h : Yields (s.addLocked products tag) w (.ok r) w') :
    (∃ now, Release.make? tag products now = some r) ∧ r.HasPlainNames ∧
      w'.HasFiles (s.entry w.directory (Version.dirName tag)) (r.files s.options) := by
  rw [addLocked] at h
  obtain ⟨taken, w₁, asked, afterAsked⟩ := h.bind_ok
  obtain ⟨_, ran, -⟩ := asked.ofProgram_cases
  obtain rfl : w = w₁ := (Prod.mk.inj ran).2
  cases taken with
  | true => cases (afterAsked.unique (yields_throw (.versionExists tag) w)).1
  | false =>
    obtain ⟨now, w₁, told, afterTold⟩ := Yields.bind_ok afterAsked
    obtain ⟨_, ran, -⟩ := told.ofProgram_cases
    obtain rfl : w = w₁ := (Prod.mk.inj ran).2
    obtain ⟨r', w₁, given, writing⟩ := Yields.bind_ok afterTold
    obtain ⟨made, rfl⟩ := given.ofOption_ok
    obtain ⟨v', -, form⟩ := Release.make?_eq_some.1 made
    obtain rfl : r'.tag = tag := by rw [form]
    obtain rfl : r'.products = products := by rw [form]
    obtain ⟨_, w₁, written, done⟩ := Yields.bind_ok writing
    obtain ⟨same, rfl⟩ := done.unique (yields_pure r' w₁)
    obtain rfl := Except.ok.inj same
    obtain ⟨pieces, files⟩ :=
      hasFiles_write proper root checked (fun _ => isEntryName_artifact names) written
    refine ⟨⟨now, made⟩, fun e mem => ?_, files⟩
    have piece := pieces _ (Release.mem_artifacts.2 (.inl (Release.mem_productArtifacts.2
      ⟨e, mem, rfl⟩)))
    exact ⟨names e mem, IsProductName.noZero_of_productFile piece.noZero⟩

/-- The same with the lock given back. -/
theorem hasFiles_released (proper : w.Proper) (root : s.root.IsWritten)
    (checked : Version.ofCheckedTag? tag = some v)
    (names : ∀ e ∈ products.entries, IsProductName e.1) (isName : IsPieceName a)
    (unlike : Version.dirName tag ≠ a)
    (h : Yields ((s.addLocked products tag).finallyDo (Lock.release (s.file a))) w (.ok r) w') :
    (∃ now, Release.make? tag products now = some r) ∧ r.HasPlainNames ∧
      w'.HasFiles (s.entry w.directory (Version.dirName tag)) (r.files s.options) := by
  have adding : (s.addLocked products tag).Within w.directory
      (s.Owns w.directory (usedNames tag)) (OnWay w.directory s.root) :=
    within_addLocked root checked (fun _ => id) (fun _ => id) fun e mem =>
      owns_productPlace (Version.ofTag?_of_ofCheckedTag? checked) (names e mem).staysBelow
  obtain ⟨w₁, _, added, released⟩ := h.finallyDo_cases
  have kept := adding.yields proper added
  have releasing : (Lock.release (s.file a)).Within w₁.directory (s.Owns w₁.directory [a])
      (OnWay w₁.directory s.root) :=
    Lock.within_release (here_file (fun _ => id) List.mem_cons_self isName)
  obtain ⟨made, plain, files⟩ := hasFiles_addLocked proper root checked names added
  rw [← kept.directory] at files ⊢
  exact ⟨made, plain, files.kept (releasing.yields kept.proper released)
    (notOwns_entry (by simpa using unlike))⟩

/-- The same with the lock taken before. -/
theorem hasFiles_lockAndAdd (proper : w.Proper) (root : s.root.IsWritten)
    (checked : Version.ofCheckedTag? tag = some v)
    (names : ∀ e ∈ products.entries, IsProductName e.1)
    (h : Yields (s.lockAndAdd products tag) w (.ok r) w') :
    (∃ now, Release.make? tag products now = some r) ∧ r.HasPlainNames ∧
      w'.HasFiles (s.entry w.directory (Version.dirName tag)) (r.files s.options) := by
  have tagged := Version.ofTag?_of_ofCheckedTag? checked
  have hidden := isPieceName_lock tagged
  have unlike := dirName_ne_hidden tagged (Version.dirName tag) ".lock"
  have lockPath : s.lockPath tag = s.file ("." ++ Version.dirName tag ++ ".lock") := rfl
  unfold lockAndAdd at h
  rw [lockPath] at h
  generalize "." ++ Version.dirName tag ++ ".lock" = lock at hidden unlike h
  have taking : (Lock.take (s.file lock)).Within w.directory (s.Owns w.directory [lock])
      (OnWay w.directory s.root) :=
    Lock.within_take (root.join _) (here_file (fun _ => id) List.mem_cons_self hidden)
  obtain ⟨locked, w₁, took, afterTook⟩ := h.bind_ok
  have kept := taking.yields proper took
  cases locked with
  | true =>
    rw [← kept.directory]
    exact hasFiles_released kept.proper root checked names hidden unlike afterTook
  | false =>
    obtain ⟨taken, w₂, asked, refused⟩ := Yields.bind_ok afterTook
    cases taken with
    | true => cases (refused.unique (yields_throw (.versionExists tag) w₂)).1
    | false => cases (refused.unique (yields_throw (.locked tag (s.file lock).text) w₂)).1

/-- A release that has been added is there with all its files. -/
theorem hasFiles_freeze (proper : w.Proper) (root : s.root.IsWritten)
    (names : ∀ e ∈ products.entries, IsProductName e.1)
    (h : Yields (s.freeze products tag) w (.ok r) w') :
    (∃ now, Release.make? tag products now = some r) ∧ r.HasPlainNames ∧
      w'.HasFiles (s.entry w.directory (Version.dirName tag)) (r.files s.options) := by
  cases checked : Version.ofCheckedTag? tag with
  | none => cases (freeze_invalid h checked).1
  | some v =>
    rw [freeze_eq s products checked] at h
    have creating : (createDirectories s.root).Within w.directory (s.Owns w.directory [])
        (OnWay w.directory s.root) := within_createDirectories root fun q => .inr
    obtain ⟨_, w₁, created, afterCreated⟩ := h.bind_ok
    have kept := creating.yields proper created
    obtain ⟨taken, _, asked, afterAsked⟩ := Yields.bind_ok afterCreated
    obtain ⟨_, ran, -⟩ := asked.ofProgram_cases
    obtain ⟨-, rfl⟩ := Prod.mk.inj ran
    cases taken with
    | true => cases (afterAsked.unique (yields_throw (.versionExists tag) w₁)).1
    | false =>
      rw [← kept.directory]
      exact hasFiles_lockAndAdd kept.proper root checked names afterAsked

end Store

end ProductSpec
