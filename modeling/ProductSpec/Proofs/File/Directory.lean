/-
  Directories that are looked for and created. What comes of it depends on the files only, neither
  on the time nor on the order in which the files are listed.
-/
import ProductSpec.Proofs.File.Action
import ProductSpec.Proofs.File.Place

namespace ProductSpec

namespace FileTree

variable {t t' : FileTree} {p : FilePlace} {e : FileEntry}

theorem walk_of_get? (same : ∀ q, t'.get? q = t.get? q) (here : FilePlace) (xs : List String) :
    t'.walk here xs = t.walk here xs := by
  induction xs generalizing here with
  | nil => rfl
  | cons piece rest ih => simp only [walk, same, ih]

theorem place_of_get? (same : ∀ q, t'.get? q = t.get? q) (directory : FilePlace) (p : FilePath) :
    t'.place directory p = t.place directory p := by
  simp only [place, walk_of_get? same]

theorem get?_set (filled : p ≠ []) (q : FilePlace) :
    (t.set p e).get? q = if q = p then some e else t.get? q := by
  by_cases root : q = []
  · rw [root, if_neg filled.symm]
    rfl
  · rw [get?_eq root, get?_eq root, entriesAt_set]
    split <;> rfl

/-- A directory that is created where there was nothing is found there. -/
theorem walk_set (filled : p ≠ []) (free : t.get? p = none) {here : FilePlace} {xs : List String}
    (h : t.walk here xs = .ok p) : (t.set p .directory).walk here xs = .ok p := by
  induction xs generalizing here with
  | nil => exact h
  | cons piece rest ih =>
    -- The way may reach the place only at its end, as there is nothing to go on from.
    by_cases same : here = p
    · subst same
      rw [walk, free] at h
      dsimp only at h
      split at h
      · next last =>
        rw [walk, get?_set filled, if_pos rfl]
        simp [last, walk]
      · cases h
    · cases found : t.get? here with
      | none =>
        rw [walk, found] at h
        dsimp only at h
        split at h
        · exact absurd (Except.ok.inj h) same
        · cases h
      | some e =>
        cases e with
        | file =>
          rw [walk, found] at h
          cases h
        | directory =>
          rw [walk_cons found] at h
          rw [walk_cons (by rw [get?_set filled, if_neg same, found]), ih h]

end FileTree

namespace World

open FileProgram

variable {w : World} {p : FilePath} {q : FilePlace}

theorem answer_kind (placed : w.tree.place w.directory p = .ok q) :
    w.answer (.kind p) = ((w.tree.get? q).map FileEntry.kind, w) := by
  rw [World.answer, World.look_eq placed, FileTree.find]
  cases w.tree.get? q <;> rfl

theorem run_isDirectory (placed : w.tree.place w.directory p = .ok q) :
    (isDirectory p).run w = ((w.tree.get? q).map FileEntry.kind == some .directory, w) := by
  rw [isDirectory, run_bind, run_perform, answer_kind placed]
  rfl

/-- What is a directory has a place. -/
theorem exists_place_of_isDirectory (h : ((isDirectory p).run w).1 = true) :
    ∃ q, w.tree.place w.directory p = .ok q ∧ w.tree.get? q = some .directory := by
  cases placed : w.tree.place w.directory p with
  | error e =>
    rw [isDirectory, run_bind, run_perform, answer, look, placed] at h
    cases h
  | ok q =>
    rw [run_isDirectory placed] at h
    refine ⟨q, rfl, ?_⟩
    cases found : w.tree.get? q with
    | none =>
      rw [found] at h
      cases h
    | some e =>
      cases e with
      | directory => rfl
      | file =>
        rw [found] at h
        cases h

end World

namespace FileAction

variable {w : World} {p : FilePath} {q : FilePlace}

/-- The directory itself is tried first. -/
theorem createDirectories_eq (written : p.pieces ≠ []) (filled : p.isEmpty = false) :
    ∃ retry, FileProgram.createDirectories p =
      FileProgram.perform (.createDirectory p) >>= fun
        | .ok () => pure (.ok ())
        | .error .notFound => retry
        | .error e => FileProgram.isDirectory p >>= fun isThere =>
          pure (if isThere then .ok () else .error e) := by
  obtain ⟨depth, form⟩ := Nat.exists_eq_succ_of_ne_zero (List.length_pos_iff.2 written).ne'
  rw [FileProgram.createDirectories, form, FileProgram.createDirectoriesFrom, filled]
  exact ⟨_, rfl⟩

/-- A directory that is there already is not created. -/
theorem yields_createDirectories (noFault : w.fault = none) (written : p.pieces ≠ [])
    (placed : w.tree.place w.directory p = .ok q) (found : w.tree.get? q = some .directory) :
    Yields (createDirectories p) w (.ok ()) w := by
  refine yields_ofFile (x := .ok ()) ?_
  have answer : w.answer (.createDirectory p) = (.error .alreadyExists, w) := by
    rw [World.answer, World.attempt_eq noFault, World.change, World.look_eq placed,
      FileTree.createDirectory, found]
  obtain ⟨retry, form⟩ := createDirectories_eq written (FileTree.place_eq_ok.1 placed).1
  rw [form, FileProgram.run_bind, FileProgram.run_perform, answer]
  dsimp only
  rw [FileProgram.run_bind, World.run_isDirectory placed, found]
  rfl

/-- A directory is created where there is nothing yet. -/
theorem yields_createDirectories_of_free (noFault : w.fault = none) (written : p.pieces ≠ [])
    (placed : w.tree.place w.directory p = .ok q) (free : w.tree.get? q = none) :
    Yields (createDirectories p) w (.ok ()) { w with tree := w.tree.set q .directory } := by
  refine yields_ofFile (x := .ok ()) ?_
  have answer : w.answer (.createDirectory p) =
      (.ok (), { w with tree := w.tree.set q .directory }) := by
    rw [World.answer, World.attempt_eq noFault]
    exact World.change_eq placed (by rw [FileTree.createDirectory, free])
  obtain ⟨retry, form⟩ := createDirectories_eq written (FileTree.place_eq_ok.1 placed).1
  rw [form, FileProgram.run_bind, FileProgram.run_perform, answer]
  rfl

end FileAction

/-- In a later world the files are as they were, though they may be listed in another order. -/
structure World.Unchanged (w w' : World) : Prop where
  fault : w'.fault = w.fault
  directory : w'.directory = w.directory
  entries : w'.tree.entries.Perm w.tree.entries
  same : ∀ q, w'.tree.get? q = w.tree.get? q

namespace World.Unchanged

variable {w w' : World}

theorem refl (w : World) : w.Unchanged w := ⟨rfl, rfl, .refl _, fun _ => rfl⟩

theorem place_eq (h : w.Unchanged w') (path : FilePath) :
    w'.tree.place w'.directory path = w.tree.place w.directory path := by
  rw [h.directory, FileTree.place_of_get? h.same]

theorem entriesAt (h : w.Unchanged w') (q : FilePlace) :
    (w'.tree.entriesAt q).Perm (w.tree.entriesAt q) :=
  (h.entries.filter _).map _

theorem look_eq {α : Type} (h : w.Unchanged w') (path : FilePath)
    (f : FilePlace → Except FileError α) : w'.look path f = w.look path f := by
  rw [World.look, World.look, h.place_eq]

theorem set (h : w.Unchanged w') {q : FilePlace} (filled : q ≠ []) (e : FileEntry) :
    Unchanged { w with tree := w.tree.set q e } { w' with tree := w'.tree.set q e } where
  fault := h.fault
  directory := h.directory
  entries := (h.entries.filter _).cons _
  same p := by rw [FileTree.get?_set filled, FileTree.get?_set filled, h.same]

end World.Unchanged

/-- A program that comes to the same in all worlds with the same files, and leaves the same files
behind. -/
def FileProgram.Steady {α : Type} (p : FileProgram α) : Prop :=
  ∀ ⦃w w' : World⦄, w.fault = none → w.Unchanged w' →
    (p.run w').1 = (p.run w).1 ∧ (p.run w).2.fault = none ∧ (p.run w).2.Unchanged (p.run w').2

namespace FileProgram

variable {α β : Type} {p : FileProgram α}

theorem steady_pure (x : α) : Steady (pure x) := fun _ _ noFault unchanged =>
  ⟨rfl, noFault, unchanged⟩

theorem Steady.bind {f : α → FileProgram β} (h : Steady p) (next : ∀ x, Steady (f x)) :
    Steady (p >>= f) := by
  intro w w' noFault unchanged
  obtain ⟨same, noFault, unchanged⟩ := h noFault unchanged
  rw [run_bind, run_bind, same]
  exact next _ noFault unchanged

theorem steady_kind (path : FilePath) : Steady (perform (.kind path)) := by
  intro w w' noFault unchanged
  have find : w'.look path w'.tree.find = w.look path w.tree.find := by
    rw [unchanged.look_eq]
    congr 1
    funext q
    rw [FileTree.find, FileTree.find, unchanged.same]
  refine ⟨?_, noFault, unchanged⟩
  change (w'.answer (.kind path)).1 = (w.answer (.kind path)).1
  rw [World.answer, World.answer, find]

theorem steady_isDirectory (path : FilePath) : Steady (isDirectory path) :=
  (steady_kind path).bind fun _ => steady_pure _

theorem steady_createDirectory (path : FilePath) : Steady (perform (.createDirectory path)) := by
  intro w w' noFault unchanged
  have noFault' : w'.fault = none := unchanged.fault.trans noFault
  change (w'.answer (.createDirectory path)).1 = (w.answer (.createDirectory path)).1 ∧
    (w.answer (.createDirectory path)).2.fault = none ∧
      (w.answer (.createDirectory path)).2.Unchanged (w'.answer (.createDirectory path)).2
  rw [World.answer, World.answer, World.attempt_eq noFault, World.attempt_eq noFault',
    World.change, World.change, unchanged.look_eq]
  unfold World.look
  cases placed : w.tree.place w.directory path with
  | error e => exact ⟨rfl, noFault, unchanged⟩
  | ok q =>
    simp only [Except.bind, FileTree.createDirectory, unchanged.same]
    cases found : w.tree.get? q with
    | some e => exact ⟨rfl, noFault, unchanged⟩
    | none =>
      have filled := FileTree.ne_nil_of_get? found (by simp)
      exact ⟨rfl, noFault, unchanged.set filled .directory⟩

theorem steady_createDirectoriesFrom (depth : Nat) (path : FilePath) :
    Steady (createDirectoriesFrom depth path) := by
  induction depth generalizing path with
  | zero => exact steady_createDirectory path
  | succ depth ih =>
    rw [createDirectoriesFrom]
    split
    · exact steady_pure _
    · refine (steady_createDirectory path).bind fun reply => ?_
      split
      · exact steady_pure _
      · split
        · exact steady_pure _
        · refine (ih _).bind fun reply => ?_
          split
          · exact steady_pure _
          · refine (steady_createDirectory path).bind fun reply => ?_
            split
            · exact steady_pure _
            · exact (steady_isDirectory path).bind fun _ => steady_pure _
      · exact (steady_isDirectory path).bind fun _ => steady_pure _

end FileProgram

/-- The creation of directories succeeds in all worlds with the same files, or in none. -/
theorem FileAction.Yields.createDirectories_unchanged {w w' w₁ : World} {path : FilePath}
    (h : Yields (createDirectories path) w (.ok ()) w₁) (noFault : w.fault = none)
    (unchanged : w.Unchanged w') : ∃ w₁', Yields (createDirectories path) w' (.ok ()) w₁' ∧
      w₁.fault = none ∧ w₁.Unchanged w₁' := by
  have steady : FileProgram.Steady (ExceptT.run (createDirectories path)) :=
    (FileProgram.steady_createDirectoriesFrom _ path).bind fun _ => FileProgram.steady_pure _
  obtain ⟨same, noFault, unchanged⟩ := steady noFault unchanged
  rw [h] at same noFault unchanged
  exact ⟨((ExceptT.run (createDirectories path)).run w').2, Prod.ext same rfl, noFault, unchanged⟩

end ProductSpec
