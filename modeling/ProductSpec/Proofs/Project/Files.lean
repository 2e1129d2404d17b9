/-
  Projects, definitions and data files: what it takes to load them. Another file that arrives
  changes nothing about them.
-/
import ProductSpec.DataFile.Dump
import ProductSpec.Project.Basic
import ProductSpec.Proofs.File.Arrival

namespace ProductSpec

open FileAction

variable {w w' : World} {p : FilePath}

/-- What is read out of a file is what its text stands for. -/
theorem FileAction.yields_ofText_iff {α : Type} {e : Fault} {read? : String → Option α} {x : α}
    (noFault : w.fault = none) :
    Yields (do ofOption e (read? (← readText p)) : FileAction α) w (.ok x) w' ↔
      ∃ text, w.LeadsToFile p text.toUTF8 ∧ read? text = some x ∧ w' = w := by
  constructor
  · intro h
    obtain ⟨text, w₁, read, made⟩ := h.bind_ok
    obtain ⟨found, rfl⟩ := (yields_readText_iff noFault).1 read
    obtain ⟨same, rfl⟩ := made.ofOption_ok
    exact ⟨text, found, same, rfl⟩
  · rintro ⟨text, found, same, rfl⟩
    refine ((yields_readText_iff noFault).2 ⟨found, rfl⟩).bind ?_
    rw [same]
    exact yields_ofOption e (some x) _

/-- What could be read is read in the same way when one more file is there. -/
theorem FileAction.yields_ofText_withFile {α : Type} {e : Fault} {read? : String → Option α} {x : α}
    {directory : FilePlace} {name : String} {content : ByteArray} {modified : Int}
    (noFault : w.fault = none) (free : w.tree.get? (directory ++ [name]) = none)
    (h : Yields (do ofOption e (read? (← readText p)) : FileAction α) w (.ok x) w) :
    Yields (do ofOption e (read? (← readText p)) : FileAction α)
      (w.withFile directory name content modified) (.ok x)
      (w.withFile directory name content modified) := by
  obtain ⟨text, leads, known, -⟩ := (yields_ofText_iff noFault).1 h
  exact (yields_ofText_iff (w := w.withFile directory name content modified) noFault).2
    ⟨text, leads.withFile free, known, rfl⟩

theorem onlyLooks_readDocument {α : Type} (decode : Json → Json.Decoded α) (path : FilePath) :
    OnlyLooks (readDocument decode path) :=
  (onlyLooks_readText path).bind fun _ => onlyLooks_ofOption _ _

namespace DataFile

variable {file : DataFile}

/-- After a file has been saved its path leads to it. -/
theorem received_save (h : Yields (save file p) w (.ok ()) w')
    (noFault : w.fault = none) : w.Received w' p file.toJson.pretty.toUTF8 := by
  unfold save at h
  cases parent : p.parent? with
  | none =>
    rw [parent] at h
    exact h.received_writeText noFault
  | some directory =>
    rw [parent] at h
    obtain ⟨⟨⟩, w₁, prepared, written⟩ := h.bind_ok
    have extended := prepared.extends noFault
    exact .of_extends extended (written.received_writeText extended.noFault)

/-- A file is loaded where its document has arrived. -/
theorem load_of_received (h : w.Received w' p file.toJson.pretty.toUTF8)
    (read : decodeDocument FileGroup.decode file.toJson.pretty = some file) :
    Yields (load p) w' (.ok file) w' :=
  (yields_ofText_iff h.noFault).2 ⟨_, h.arrived, read, rfl⟩

end DataFile

theorem Definition.onlyLooks_load (path : FilePath) : OnlyLooks (load path) :=
  (onlyLooks_readText path).bind fun _ => onlyLooks_ofOption _ _

/-- A definition is read as before when a file has arrived elsewhere. -/
theorem Definition.load_of_received {content : ByteArray} {path : FilePath} {d : Definition}
    (noFault : w.fault = none) (h : w.Received w' p content)
    (apart : FileTree.resolve w.directory p ≠ FileTree.resolve w.directory path)
    (read : Yields (load path) w (.ok d) w) : Yields (load path) w' (.ok d) w' := by
  obtain ⟨text, leads, known, -⟩ := (yields_ofText_iff noFault).1 read
  obtain ⟨q, time, placed, found⟩ := leads
  have still := (h.leadsToFile_iff apart.symm placed).2 ⟨q, time, placed, found⟩
  exact (yields_ofText_iff h.noFault).2 ⟨text, still, known, rfl⟩

namespace Project

variable {root defaultsFile definitionsDir : FilePath} {project : Project}

/-- The defaults of a project are those in its file of defaults, if there is one. -/
def HasDefaults (w : World) (path : FilePath) (defaults : Defaults) : Prop :=
  (∃ text, w.LeadsToFile path text.toUTF8 ∧ Defaults.read? text = some defaults) ∨
    (¬ ∃ content, w.LeadsToFile path content) ∧ defaults = .empty

/-- What is done to open a project whose directory is there. -/
def fill (root defaultsFile definitionsDir : FilePath) : FileAction Project := do
  let path := root.join defaultsFile
  let defaults ← if ← isFile path then ofOption .yaml (Defaults.read? (← readText path))
    else pure .empty
  return ⟨root, root.join definitionsDir, defaults⟩

theorem onlyLooks_fill (root defaultsFile definitionsDir : FilePath) :
    OnlyLooks (fill root defaultsFile definitionsDir) := by
  refine (onlyLooks_isFile _).bind fun hasFile => ?_
  cases hasFile with
  | false => exact onlyLooks_pure _
  | true =>
    exact (onlyLooks_readText _).bind fun text => (onlyLooks_ofOption _ _).bind fun defaults =>
      onlyLooks_pure _

theorem onlyLooks_load (root defaultsFile definitionsDir : FilePath) :
    OnlyLooks (load root defaultsFile definitionsDir) := by
  refine (onlyLooks_isDirectory root).bind fun isThere => ?_
  have filled := onlyLooks_fill root defaultsFile definitionsDir
  cases isThere with
  | false => exact (onlyLooks_throw _).bind fun _ => filled
  | true => exact filled

theorem onlyLooks_standard (p : Project) : OnlyLooks p.standard := by
  have named : OnlyLooks p.name := by
    unfold name
    split
    · exact onlyLooks_pure _
    · exact (onlyLooks_ofProgram (FileProgram.onlyLooks_canonical _)).bind fun _ => onlyLooks_pure _
  exact named.bind fun name => onlyLooks_ofExcept _

/-- A project whose directory is there is opened if its defaults can be read. -/
theorem yields_fill_iff (noFault : w.fault = none) :
    Yields (fill root defaultsFile definitionsDir) w (.ok project) w' ↔
      HasDefaults w (root.join defaultsFile) project.defaults ∧
        project = ⟨root, root.join definitionsDir, project.defaults⟩ ∧ w' = w := by
  obtain ⟨hasFile, asked, file⟩ := yields_isFile (root.join defaultsFile) w
  constructor
  · intro h
    obtain ⟨_, w₁, looked, filling⟩ := h.bind_ok
    obtain ⟨same, rfl⟩ := looked.unique asked
    cases same
    cases hasFile with
    | false =>
      obtain ⟨made, rfl⟩ := Prod.mk.inj filling
      cases made
      have absent : ¬ ∃ content, w₁.LeadsToFile (root.join defaultsFile) content := fun isFile =>
        Bool.false_ne_true (file.2 isFile)
      exact ⟨.inr ⟨absent, rfl⟩, rfl, rfl⟩
    | true =>
      obtain ⟨text, w₂, read, decoding⟩ := filling.bind_ok
      obtain ⟨leads, rfl⟩ := (yields_readText_iff noFault).1 read
      obtain ⟨defaults, w₃, given, making⟩ := decoding.bind_ok
      obtain ⟨known, rfl⟩ := given.ofOption_ok
      obtain ⟨made, rfl⟩ := Prod.mk.inj making
      cases made
      exact ⟨.inl ⟨text, leads, known⟩, rfl, rfl⟩
  · rintro ⟨hasDefaults, form, rfl⟩
    rw [form]
    refine asked.bind ?_
    rcases hasDefaults with ⟨text, leads, known⟩ | ⟨absent, none⟩
    · obtain rfl := file.2 ⟨_, leads⟩
      refine ((yields_readText_iff noFault).2 ⟨leads, rfl⟩).bind ?_
      rw [known]
      exact (yields_ofOption _ (some project.defaults) _).bind (yields_pure _ _)
    · obtain rfl : hasFile = false := Bool.eq_false_iff.2 fun isFile => absent (file.1 isFile)
      rw [none]
      exact yields_pure _ _

/-- A project is opened where there is a directory and its defaults can be read. -/
theorem yields_load_iff (noFault : w.fault = none) :
    Yields (load root defaultsFile definitionsDir) w (.ok project) w' ↔
      w.LeadsToDirectory root ∧ HasDefaults w (root.join defaultsFile) project.defaults ∧
        project = ⟨root, root.join definitionsDir, project.defaults⟩ ∧ w' = w := by
  obtain ⟨isThere, seen, directory⟩ := yields_isDirectory root w
  constructor
  · intro h
    obtain ⟨_, w₁, looked, onward⟩ := h.bind_ok
    obtain ⟨same, rfl⟩ := looked.unique seen
    cases same
    cases isThere with
    | false =>
      obtain ⟨_, _, refused, -⟩ := onward.bind_ok
      cases refused
    | true => exact ⟨directory.1 rfl, (yields_fill_iff noFault).1 onward⟩
  · rintro ⟨found, filled⟩
    obtain rfl := directory.2 found
    exact seen.bind ((yields_fill_iff noFault).2 filled)

/-- A project is opened where its directory is. -/
theorem isDirectory_of_load (noFault : w.fault = none)
    (h : Yields (load root defaultsFile definitionsDir) w (.ok project) w') :
    w.LeadsToDirectory project.root ∧ w' = w := by
  obtain ⟨isThere, -, form, same⟩ := (yields_load_iff noFault).1 h
  rw [form]
  exact ⟨isThere, same⟩

/-- The standard of a project is compiled under a name for which the project is only looked at,
whatever has been printed. -/
theorem yields_standard (noFault : w.fault = none) (project : Project) :
    ∃ name, ∀ output, Yields project.standard { w with output }
      ((project.defaults.standard name).mapError .definition) { w with output } := by
  suffices named : ∃ name, ∀ output,
      Yields project.name { w with output } (.ok name) { w with output } by
    obtain ⟨name, named⟩ := named
    exact ⟨name, fun output => (named output).bind (yields_ofExcept _ _)⟩
  unfold name
  cases project.defaults.conventions with
  | some conventions => exact ⟨conventions, fun _ => yields_pure _ _⟩
  | none =>
    have ran (output : String) :
        (FileProgram.perform (.canonical project.root)).run { w with output } =
          ((w.answer (.canonical project.root)).1, { w with output }) := by
      rw [FileProgram.run_perform, World.answer, World.answer, World.attempt_eq noFault,
        World.attempt_eq (w := { w with output }) noFault]
      rfl
    exact ⟨_, fun output => (yields_ofProgram (ran output)).bind (yields_pure _ _)⟩

/-- A project with a directory has the same standard when one more file is there. -/
theorem standard_withFile {directory : FilePlace} {name : String} {content : ByteArray}
    {modified : Int} {s : Dataset} (noFault : w.fault = none)
    (free : w.tree.get? (directory ++ [name]) = none) (isThere : w.LeadsToDirectory project.root)
    (h : Yields project.standard w (.ok s) w) :
    Yields project.standard (w.withFile directory name content modified) (.ok s)
      (w.withFile directory name content modified) := by
  let w₁ := w.withFile directory name content modified
  have told {w : World} (noFault : w.fault = none) {q : FilePlace}
      (placed : w.Places project.root q) (found : w.tree.get? q = some .directory) :
      (FileProgram.perform (.canonical project.root)).run w =
        (.ok ⟨"" :: if q = [] then [""] else q⟩, w) := by
    rw [FileProgram.run_perform, World.answer, World.attempt_eq noFault, World.look_eq placed,
      FileTree.find_eq_ok.2 found]
    rfl
  have named : ∃ called, Yields project.name w (.ok called) w ∧
      Yields project.name w₁ (.ok called) w₁ := by
    unfold Project.name
    cases project.defaults.conventions with
    | some conventions => exact ⟨conventions, yields_pure _ _, yields_pure _ _⟩
    | none =>
      obtain ⟨q, placed, found⟩ := isThere
      have still : w₁.Places project.root q :=
        placed.withFile free (by rw [found]; exact Option.some_ne_none _)
      have stillFound : w₁.tree.get? q = some .directory :=
        (World.isDirectory_withFile free).2 found
      exact ⟨_, (yields_ofProgram (told noFault placed found)).bind (yields_pure _ _),
        (yields_ofProgram (told (w := w₁) noFault still stillFound)).bind (yields_pure _ _)⟩
  obtain ⟨called, before, after⟩ := named
  obtain ⟨called', w₂, before', made⟩ := h.bind_ok
  obtain ⟨same, rfl⟩ := before'.unique before
  obtain rfl := Except.ok.inj same
  obtain ⟨compiled, -⟩ := made.unique (yields_ofExcept _ _)
  refine after.bind ?_
  rw [compiled]
  exact yields_ofExcept _ _

/-- A project is opened as before when a file has arrived elsewhere. -/
theorem load_of_received {content : ByteArray} (noFault : w.fault = none)
    (h : w.Received w' p content) {defaultsName : String} (piece : IsPieceName defaultsName)
    (apart : FileTree.resolve w.directory p ≠ FileTree.resolve w.directory (root.join defaultsName))
    (opened : Yields (load root defaultsName definitionsDir) w (.ok project) w) :
    Yields (load root defaultsName definitionsDir) w' (.ok project) w' := by
  obtain ⟨isThere, hasDefaults, form, -⟩ := (yields_load_iff noFault).1 opened
  have placed : w.Places (root.join defaultsName)
      (FileTree.resolve w.directory (root.join defaultsName)) := by
    obtain ⟨q, rootPlaced, found⟩ := isThere
    have inside := FileTree.place_join rootPlaced found piece
    rwa [← FileTree.place_eq_resolve inside]
  have same {content} : w'.LeadsToFile (root.join defaultsName) content ↔
      w.LeadsToFile (root.join defaultsName) content :=
    h.leadsToFile_iff apart.symm placed
  refine (yields_load_iff h.noFault).2 ⟨h.leadsToDirectory isThere, ?_, form, rfl⟩
  unfold HasDefaults at hasDefaults ⊢
  simpa only [same] using hasDefaults

end Project

end ProductSpec
