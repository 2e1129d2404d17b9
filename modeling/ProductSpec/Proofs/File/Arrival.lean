/-
  A file that arrives: after it has been written, and the directories around it created, the path
  leads to it, and all other paths lead where they led before. The same is said of a file that
  stands in a directory in one world and is missing in another.
-/
import ProductSpec.Proofs.File.Reading

namespace ProductSpec

namespace FileTree

variable {t t' t₁ t₂ : FileTree} {q : FilePlace}

/-- Nothing has changed but that directories have come where nothing was. -/
def Extends (t t' : FileTree) : Prop :=
  ∀ q, t'.get? q = t.get? q ∨ t.get? q = none ∧ t'.get? q = some .directory

theorem Extends.refl (t : FileTree) : t.Extends t := fun _ => .inl rfl

theorem Extends.trans (h : t.Extends t₁) (next : t₁.Extends t₂) : t.Extends t₂ := by
  intro q
  rcases h q with same | ⟨free, come⟩
  · rw [← same]
    exact next q
  · rcases next q with same' | ⟨free', -⟩
    · exact .inr ⟨free, same'.trans come⟩
    · cases come.symm.trans free'

theorem extends_set (free : t.get? q = none) : t.Extends (t.set q .directory) := by
  intro q'
  rw [get?_set (ne_nil_of_get? free nofun)]
  split
  · next same => exact .inr ⟨same ▸ free, rfl⟩
  · exact .inl rfl

/-- A way to something that is there is still there if the directories are. -/
theorem walk_of_kept {here : FilePlace} {xs : List String}
    (kept : ∀ q, t.get? q = some .directory → t'.get? q = some .directory)
    (found : t.get? q ≠ none) (way : t.walk here xs = .ok q) : t'.walk here xs = .ok q := by
  induction xs generalizing here with
  | nil => exact way
  | cons piece rest ih =>
    rcases walk_cons_cases way with ⟨directory, onward⟩ | ⟨nothing, -, -, rfl⟩
    · rw [walk_cons (kept here directory), ih onward]
    · exact absurd nothing found

theorem Extends.isDirectory (h : t.Extends t') (found : t.get? q = some .directory) :
    t'.get? q = some .directory := by
  rcases h q with same | ⟨free, -⟩
  · exact same.trans found
  · cases found.symm.trans free

/-- The path under which a file has been put leads to it. -/
theorem place_set {directory : FilePlace} {p : FilePath} {e : FileEntry}
    (placed : t.place directory p = .ok q) (plain : p.endsInSlash = false)
    (notDirectory : t.get? q ≠ some .directory) : (t.set q e).place directory p = .ok q := by
  obtain ⟨notEmpty, noZero, way⟩ := place_eq_ok.1 placed
  refine place_eq_ok.2 ⟨notEmpty, noZero, ?_⟩
  have filled := ne_nil_of_get? rfl notDirectory
  rcases List.eq_nil_or_concat p.pieces with none | ⟨before, name, form⟩
  · rw [none] at way ⊢
    exact way
  · rw [List.concat_eq_append] at form
    have named : name ≠ "" := by
      rintro rfl
      rw [FilePath.endsInSlash, form, List.getLast?_concat] at plain
      cases plain
    rw [form] at way ⊢
    -- Only directories are passed, and none of them has been replaced.
    refine walk_of_directories named way fun ys _ found => ?_
    have elsewhere : followAll (startOf directory p) ys ≠ q := fun same =>
      notDirectory (same ▸ found)
    rw [get?_set filled, if_neg elsewhere, found]

end FileTree

namespace World

open FileTree

variable {w w' w₁ w₂ : World}

/-- In a later world directories may have come. -/
structure Extends (w w' : World) : Prop where
  noFault : w'.fault = none
  directory : w'.directory = w.directory
  tree : w.tree.Extends w'.tree

theorem Extends.refl (noFault : w.fault = none) : w.Extends w := ⟨noFault, rfl, .refl _⟩

theorem Extends.trans (h : w.Extends w₁) (next : w₁.Extends w₂) : w.Extends w₂ :=
  ⟨next.noFault, next.directory.trans h.directory, h.tree.trans next.tree⟩

/-- A path leads to where it led if something is there and the directories are kept. -/
theorem Places.of_kept {p : FilePath} {q : FilePlace} (placed : w.Places p q)
    (same : w'.directory = w.directory)
    (kept : ∀ q, w.tree.get? q = some .directory → w'.tree.get? q = some .directory)
    (found : w.tree.get? q ≠ none) : w'.Places p q := by
  obtain ⟨notEmpty, noZero, way⟩ := place_eq_ok.1 placed
  unfold Places
  rw [same]
  exact place_eq_ok.2 ⟨notEmpty, noZero, walk_of_kept kept found way⟩

end World

/-- A program that makes nothing but directories. -/
def FileProgram.OnlyExtends {α : Type} (p : FileProgram α) : Prop :=
  ∀ w : World, w.fault = none → w.Extends (p.run w).2

namespace FileProgram

variable {α β : Type} {p : FileProgram α}

theorem onlyExtends_pure (x : α) : OnlyExtends (pure x) := fun _ noFault => .refl noFault

theorem OnlyExtends.bind {f : α → FileProgram β} (h : OnlyExtends p)
    (next : ∀ x, OnlyExtends (f x)) : OnlyExtends (p >>= f) := by
  intro w noFault
  rw [run_bind]
  have first := h w noFault
  exact first.trans (next _ _ first.noFault)

theorem onlyExtends_isDirectory (path : FilePath) : OnlyExtends (isDirectory path) :=
  .bind (fun _ noFault => .refl noFault) fun _ => onlyExtends_pure _

theorem onlyExtends_createDirectory (path : FilePath) :
    OnlyExtends (perform (.createDirectory path)) := by
  intro w noFault
  change w.Extends (w.answer (.createDirectory path)).2
  rw [World.answer, World.attempt_eq noFault]
  rcases World.change_cases w path w.tree.createDirectory with
    ⟨e, refused⟩ | ⟨q, tree, -, made, done⟩
  · rw [refused]
    exact .refl noFault
  · obtain ⟨free, rfl⟩ := FileTree.createDirectory_eq_ok.1 made
    rw [done]
    exact ⟨noFault, rfl, FileTree.extends_set free⟩

theorem onlyExtends_createDirectoriesFrom (depth : Nat) (path : FilePath) :
    OnlyExtends (createDirectoriesFrom depth path) := by
  have checked (path : FilePath) (e : FileError) :
      OnlyExtends (do return if ← isDirectory path then .ok () else .error e :
        FileProgram (Except FileError Unit)) :=
    (onlyExtends_isDirectory path).bind fun _ => onlyExtends_pure _
  induction depth generalizing path with
  | zero => exact onlyExtends_createDirectory path
  | succ depth ih =>
    rw [createDirectoriesFrom]
    split
    · exact onlyExtends_pure _
    · refine (onlyExtends_createDirectory path).bind fun reply => ?_
      split
      · exact onlyExtends_pure _
      · split
        · exact onlyExtends_pure _
        · refine (ih _).bind fun reply => ?_
          split
          · exact onlyExtends_pure _
          · refine (onlyExtends_createDirectory path).bind fun reply => ?_
            split
            · exact onlyExtends_pure _
            · exact checked path _
      · exact checked path _

end FileProgram

/-- In a later world a path leads to a file that has been written there; directories may have come,
and nothing else has changed. -/
structure World.Received (w w' : World) (p : FilePath) (content : ByteArray) : Prop where
  noFault : w'.fault = none
  directory : w'.directory = w.directory
  arrived : w'.LeadsToFile p content
  notDirectory : w.tree.get? (FileTree.resolve w.directory p) ≠ some .directory
  others : ∀ q, q ≠ FileTree.resolve w.directory p →
    w'.tree.get? q = w.tree.get? q ∨ w.tree.get? q = none ∧ w'.tree.get? q = some .directory

namespace World.Received

open FileTree

variable {w w' : World} {p p' : FilePath} {q : FilePlace} {content content' : ByteArray}

theorem of_extends {w₁ : World} (h : w.Extends w₁) (next : w₁.Received w' p content) :
    w.Received w' p content := by
  refine ⟨next.noFault, next.directory.trans h.directory, next.arrived, fun found => ?_,
    fun q elsewhere => ?_⟩
  · refine next.notDirectory ?_
    rw [h.directory]
    exact h.tree.isDirectory found
  · rw [← h.directory] at elsewhere
    rcases h.tree q with same | ⟨free, come⟩
    · rw [← same]
      exact next.others q elsewhere
    · rcases next.others q elsewhere with same' | ⟨free', -⟩
      · exact .inr ⟨free, same'.trans come⟩
      · cases come.symm.trans free'

/-- What is printed changes nothing. -/
theorem print (h : w.Received w' p content) (text : String) :
    w.Received (w'.answer (.print text)).2 p content :=
  ⟨h.noFault, h.directory, h.arrived, h.notDirectory, h.others⟩

theorem isDirectory (h : w.Received w' p content) (found : w.tree.get? q = some .directory) :
    w'.tree.get? q = some .directory := by
  have elsewhere : q ≠ resolve w.directory p := fun same => h.notDirectory (same ▸ found)
  rcases h.others q elsewhere with same | ⟨free, -⟩
  · exact same.trans found
  · cases found.symm.trans free

theorem places (h : w.Received w' p content) (placed : w.Places p' q)
    (found : w.tree.get? q ≠ none) : w'.Places p' q :=
  placed.of_kept h.directory (fun _ => h.isDirectory) found

theorem leadsToDirectory (h : w.Received w' p content) (leads : w.LeadsToDirectory p') :
    w'.LeadsToDirectory p' := by
  obtain ⟨q, placed, found⟩ := leads
  exact ⟨q, h.places placed (by rw [found]; exact Option.some_ne_none _), h.isDirectory found⟩

/-- Another path leads to the file that it led to. -/
theorem leadsToFile_iff (h : w.Received w' p content)
    (apart : resolve w.directory p' ≠ resolve w.directory p) (placed : w.Places p' q) :
    w'.LeadsToFile p' content' ↔ w.LeadsToFile p' content' := by
  have here {w₁ : World} {q'} (same : w₁.directory = w.directory) (h : w₁.Places p' q') :
      q' = resolve w.directory p' := by
    rw [← same]
    exact place_eq_resolve h
  have kept := h.others (resolve w.directory p') apart
  constructor
  · rintro ⟨q', time, placed', found⟩
    obtain rfl := here h.directory placed'
    refine ⟨_, time, here rfl placed ▸ placed, ?_⟩
    rcases kept with same | ⟨-, come⟩
    · rw [← same, found]
    · cases found.symm.trans come
  · rintro ⟨q', time, placed', found⟩
    refine ⟨q', time, h.places placed' (by rw [found]; exact Option.some_ne_none _), ?_⟩
    obtain rfl := here rfl placed'
    rcases kept with same | ⟨free, -⟩
    · rw [same, found]
    · cases found.symm.trans free

end World.Received

namespace World

/-- The same world with one more file. -/
def withFile (w : World) (directory : FilePlace) (name : String) (content : ByteArray)
    (modified : Int) : World :=
  { w with tree := w.tree.set (directory ++ [name]) (.file content modified) }

section WithFile

variable {w : World} {directory : FilePlace} {name : String} {content content' : ByteArray}
  {modified : Int} {p : FilePath} {q : FilePlace}

theorem get?_withFile : (w.withFile directory name content modified).tree.get? q =
    if q = directory ++ [name] then some (.file content modified) else w.tree.get? q :=
  FileTree.get?_set (List.append_ne_nil_of_right_ne_nil _ (List.cons_ne_nil _ _)) q

variable (free : w.tree.get? (directory ++ [name]) = none)

include free

theorem isDirectory_withFile :
    (w.withFile directory name content modified).tree.get? q = some .directory ↔
      w.tree.get? q = some .directory := by
  rw [get?_withFile]
  split
  · next same =>
    rw [same, free]
    exact ⟨nofun, nofun⟩
  · rfl

theorem get?_withFile_of_found (found : w.tree.get? q ≠ none) :
    (w.withFile directory name content modified).tree.get? q = w.tree.get? q := by
  rw [get?_withFile, if_neg]
  rintro rfl
  exact found free

theorem Places.withFile (placed : w.Places p q) (found : w.tree.get? q ≠ none) :
    (w.withFile directory name content modified).Places p q :=
  placed.of_kept rfl (fun _ => (isDirectory_withFile free).2) found

theorem Places.of_withFile (placed : (w.withFile directory name content modified).Places p q)
    (found : (w.withFile directory name content modified).tree.get? q ≠ none) : w.Places p q :=
  placed.of_kept rfl (fun _ => (isDirectory_withFile free).1) found

theorem LeadsToFile.withFile (h : w.LeadsToFile p content') :
    (w.withFile directory name content modified).LeadsToFile p content' := by
  obtain ⟨q, time, placed, found⟩ := h
  have isThere : w.tree.get? q ≠ none := by
    rw [found]
    exact Option.some_ne_none _
  exact ⟨q, time, placed.withFile free isThere, (get?_withFile_of_found free isThere).trans found⟩

/-- A path leads to a file that was there or to the one that is new. -/
theorem LeadsToFile.of_withFile
    (h : (w.withFile directory name content modified).LeadsToFile p content') :
    w.LeadsToFile p content' ∨ content' = content := by
  obtain ⟨q, time, placed, found⟩ := h
  have before := placed.of_withFile free (by rw [found]; exact Option.some_ne_none _)
  rw [get?_withFile] at found
  split at found
  · cases found
    exact .inr rfl
  · exact .inl ⟨q, time, before, found⟩

end WithFile

end World

namespace FileAction

open FileTree

variable {w w' w₁ : World} {p : FilePath} {text : String}

theorem Yields.extends (h : Yields (createDirectories p) w (.ok ()) w') (noFault : w.fault = none) :
    w.Extends w' := by
  obtain ⟨reply, ran, -⟩ := h.ofFile_cases
  have extended := FileProgram.onlyExtends_createDirectoriesFrom p.pieces.length p w noFault
  rwa [show (FileProgram.createDirectoriesFrom p.pieces.length p).run w = (reply, w') from ran]
    at extended

/-- A path under which a file has been written leads to it. -/
theorem Yields.received_writeText (h : Yields (writeText p text) w (.ok ()) w')
    (noFault : w.fault = none) : w.Received w' p text.toUTF8 := by
  obtain ⟨reply, ran, made⟩ := h.ofFile_cases
  cases reply with
  | error => cases made
  | ok =>
    have answer : w.answer (.write p text.toUTF8) = (.ok (), w') := ran
    rw [World.answer, World.attempt_eq noFault] at answer
    rcases World.change_cases w p fun q => if p.endsInSlash then .error .isDirectory
        else w.tree.write q text.toUTF8 w.clock with ⟨e, refused⟩ | ⟨q, tree, placed, made, done⟩
    · cases refused.symm.trans answer
    · cases done.symm.trans answer
      cases slash : p.endsInSlash with
      | true =>
        rw [slash] at made
        cases made
      | false =>
        rw [slash] at made
        obtain ⟨notDirectory, rfl⟩ := write_eq_ok.1 made
        obtain rfl := place_eq_resolve placed
        have filled := ne_nil_of_get? rfl notDirectory
        refine ⟨noFault, rfl, ⟨_, w.clock, place_set placed slash notDirectory, ?_⟩, notDirectory,
          fun q other => .inl ?_⟩
        · rw [get?_set filled, if_pos rfl]
        · rw [get?_set filled, if_neg other]

end FileAction

end ProductSpec
