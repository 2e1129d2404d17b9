/-
  What is found at a path: a file with some content, a directory or nothing. Without a fault this
  alone decides what an action comes to that asks for it.
-/
import ProductSpec.Proofs.File.Way

namespace ProductSpec

theorem fromUTF8?_eq_some {bytes : ByteArray} {s : String} :
    String.fromUTF8? bytes = some s ↔ bytes = s.toUTF8 := by
  unfold String.fromUTF8?
  split
  · next valid =>
    rw [Option.some.injEq]
    exact ⟨fun same => same ▸ rfl, fun same => String.toByteArray_inj.1 same⟩
  · next invalid => exact ⟨nofun, fun same => absurd (same ▸ s.isValidUTF8) invalid⟩

namespace World

variable {w w' : World} {p : FilePath} {content content' : ByteArray}

/-- A path leads to a file. -/
def LeadsToFile (w : World) (p : FilePath) (content : ByteArray) : Prop :=
  ∃ q time, w.Places p q ∧ w.tree.get? q = some (.file content time)

theorem LeadsToFile.unique (h : w.LeadsToFile p content) (h' : w.LeadsToFile p content') :
    content = content' := by
  obtain ⟨q, time, placed, found⟩ := h
  obtain ⟨q', time', placed', found'⟩ := h'
  obtain rfl := Except.ok.inj (placed.symm.trans placed')
  cases found.symm.trans found'
  rfl

theorem kind_cases (w : World) (p : FilePath) : ∃ kind, w.answer (.kind p) = (kind, w) ∧
    (kind = some .directory ↔ w.LeadsToDirectory p) ∧
      (kind = some .file ↔ ∃ content, w.LeadsToFile p content) := by
  cases placed : w.tree.place w.directory p with
  | error e =>
    have answer : w.answer (.kind p) = (none, w) := by
      rw [World.answer, World.look, placed]
      rfl
    have nowhere : ∀ q, ¬ w.Places p q := fun q h => by cases placed.symm.trans h
    refine ⟨none, answer, iff_of_false (Option.some_ne_none _).symm ?_,
      iff_of_false (Option.some_ne_none _).symm ?_⟩
    · rintro ⟨q, h, -⟩
      exact nowhere q h
    · rintro ⟨-, q, -, h, -⟩
      exact nowhere q h
  | ok q =>
    have here : ∀ q', w.Places p q' → q' = q := fun q' h => Except.ok.inj (h.symm.trans placed)
    refine ⟨_, answer_kind placed, ?_, ?_⟩
    · constructor
      · intro h
        obtain ⟨e, found, isDirectory⟩ := Option.map_eq_some_iff.1 h
        cases e with
        | directory => exact ⟨q, placed, found⟩
        | file => cases isDirectory
      · rintro ⟨q', h, found⟩
        obtain rfl := here q' h
        rw [found]
        rfl
    · constructor
      · intro h
        obtain ⟨e, found, isFile⟩ := Option.map_eq_some_iff.1 h
        cases e with
        | directory => cases isFile
        | file content time => exact ⟨content, q, time, placed, found⟩
      · rintro ⟨content, q', time, h, found⟩
        obtain rfl := here q' h
        rw [found]
        rfl

/-- A file is read without a fault just if the path leads to it. -/
theorem answer_read (noFault : w.fault = none) (p : FilePath) :
    ∃ reply, w.answer (.read p) = (reply, w) ∧
      ∀ content, reply = .ok content ↔ w.LeadsToFile p content := by
  refine ⟨w.look p w.tree.read, by rw [World.answer, attempt_eq noFault], fun content => ?_⟩
  unfold World.look FileTree.read
  constructor
  · intro h
    obtain ⟨q, placed, h⟩ := bind_eq_ok.1 h
    obtain ⟨e, found, given⟩ := bind_eq_ok.1 h
    cases e with
    | directory => cases given
    | file content' time =>
      cases given
      exact ⟨q, time, placed, FileTree.find_eq_ok.1 found⟩
  · rintro ⟨q, time, placed, found⟩
    exact bind_eq_ok.2 ⟨q, placed, bind_eq_ok.2 ⟨_, FileTree.find_eq_ok.2 found, rfl⟩⟩

/-- The entries of a directory are told just if the path leads to it. -/
theorem look_list_eq_ok {entries : List (String × FileKind)} :
    w.look p w.tree.list = .ok entries ↔
      ∃ q, w.Places p q ∧ w.tree.get? q = some .directory ∧ w.tree.children q = entries := by
  unfold World.look FileTree.list
  constructor
  · intro h
    obtain ⟨q, placed, h⟩ := bind_eq_ok.1 h
    obtain ⟨e, found, given⟩ := bind_eq_ok.1 h
    cases e with
    | file => cases given
    | directory => exact ⟨q, placed, FileTree.find_eq_ok.1 found, Except.ok.inj given⟩
  · rintro ⟨q, placed, found, rfl⟩
    exact bind_eq_ok.2 ⟨q, placed, bind_eq_ok.2 ⟨_, FileTree.find_eq_ok.2 found, rfl⟩⟩

/-- From one world to another the files stay, and so does the directory from which they are
seen. -/
structure Alike (w w' : World) : Prop where
  tree : w'.tree = w.tree
  directory : w'.directory = w.directory

theorem Alike.leadsToFile (alike : w.Alike w') :
    w'.LeadsToFile p content ↔ w.LeadsToFile p content := by
  unfold LeadsToFile Places
  rw [alike.tree, alike.directory]

/-- What has been read is in the file to which the path leads. -/
theorem leadsToFile_of_read (h : w.answer (.read p) = (.ok content, w')) :
    w.LeadsToFile p content ∧ w.Alike w' := by
  rcases attempt_cases w fun w => (w.look p w.tree.read, w) with ⟨e, failed⟩ | ⟨fault, carriedOut⟩
  · cases (Prod.mk.inj (h.symm.trans failed)).1
  · obtain ⟨looked, rfl⟩ := Prod.mk.inj (h.symm.trans carriedOut)
    obtain ⟨q, placed, read⟩ := bind_eq_ok.1 looked.symm
    obtain ⟨e, found, given⟩ := bind_eq_ok.1 read
    cases e with
    | directory => cases given
    | file content' time =>
      cases given
      exact ⟨⟨q, time, placed, FileTree.find_eq_ok.1 found⟩, rfl, rfl⟩

end World

namespace FileProgram

variable {w w' : World} {p : FilePath}

/-- The bytes that are read are a text or not. -/
theorem run_readText {bytes : ByteArray} (read : w.answer (.read p) = (.ok bytes, w')) :
    (readText p).run w = ((String.fromUTF8? bytes).elim (.error .notText) .ok, w') := by
  rw [readText, run_bind, run_perform, read]
  cases decoded : String.fromUTF8? bytes <;>
  · simp only [decoded]
    rfl

theorem run_readText_error {e : FileError} (read : w.answer (.read p) = (.error e, w')) :
    (readText p).run w = (.error e, w') := by
  rw [readText, run_bind, run_perform, read]
  rfl

end FileProgram

namespace FileAction

variable {w w' : World} {p : FilePath} {text : String}

theorem yields_isDirectory (p : FilePath) (w : World) :
    ∃ isThere, Yields (isDirectory p) w (.ok isThere) w ∧
      (isThere = true ↔ w.LeadsToDirectory p) := by
  obtain ⟨kind, answer, directory, -⟩ := w.kind_cases p
  refine ⟨kind == some .directory, yields_ofProgram ?_, by rw [beq_iff_eq, directory]⟩
  rw [FileProgram.isDirectory, FileProgram.run_bind, FileProgram.run_perform, answer]
  rfl

theorem yields_isFile (p : FilePath) (w : World) :
    ∃ isThere, Yields (isFile p) w (.ok isThere) w ∧
      (isThere = true ↔ ∃ content, w.LeadsToFile p content) := by
  obtain ⟨kind, answer, -, file⟩ := w.kind_cases p
  refine ⟨kind == some .file, yields_ofProgram ?_, by rw [beq_iff_eq, file]⟩
  rw [FileProgram.isFile, FileProgram.run_bind, FileProgram.run_perform, answer]
  rfl

/-- A text is read where there is a file with it, and the world stays as it is. -/
theorem yields_readText (noFault : w.fault = none) (p : FilePath) :
    ∃ result, Yields (readText p) w result w ∧
      ∀ text, result = .ok text ↔ w.LeadsToFile p text.toUTF8 := by
  obtain ⟨reply, answer, read⟩ := World.answer_read noFault p
  cases reply with
  | error e =>
    refine ⟨_, yields_ofFile (FileProgram.run_readText_error answer), fun text => ?_⟩
    rw [← read]
    exact ⟨nofun, nofun⟩
  | ok bytes =>
    refine ⟨_, yields_ofFile (FileProgram.run_readText answer), fun text => ?_⟩
    rw [← read, Except.ok.injEq, ← fromUTF8?_eq_some]
    cases String.fromUTF8? bytes with
    | none => exact ⟨nofun, nofun⟩
    | some told => exact ⟨fun same => congrArg some (Except.ok.inj same),
        fun same => congrArg Except.ok (Option.some.inj same)⟩

theorem yields_readText_iff (noFault : w.fault = none) :
    Yields (readText p) w (.ok text) w' ↔ w.LeadsToFile p text.toUTF8 ∧ w' = w := by
  obtain ⟨result, yields, read⟩ := yields_readText noFault p
  rw [← read]
  constructor
  · intro h
    obtain ⟨same, stays⟩ := yields.unique h
    exact ⟨same, stays.symm⟩
  · rintro ⟨rfl, rfl⟩
    exact yields

theorem Yields.of_readBytes {content : ByteArray} (h : Yields (readBytes p) w (.ok content) w') :
    w.LeadsToFile p content ∧ w.Alike w' := by
  obtain ⟨reply, ran, given⟩ := h.ofFile_cases
  obtain rfl := mapError_eq_ok.1 given.symm
  exact World.leadsToFile_of_read ran

theorem Yields.of_readText {text : String} (h : Yields (readText p) w (.ok text) w') :
    w.LeadsToFile p text.toUTF8 ∧ w.Alike w' := by
  obtain ⟨reply, ran, given⟩ := h.ofFile_cases
  obtain rfl := mapError_eq_ok.1 given.symm
  obtain ⟨⟨e | bytes, w₁⟩, read⟩ : ∃ answer, w.answer (.read p) = answer := ⟨_, rfl⟩
  · rw [FileProgram.run_readText_error read] at ran
    cases (Prod.mk.inj ran).1
  · rw [FileProgram.run_readText read] at ran
    cases decoded : String.fromUTF8? bytes with
    | none =>
      rw [decoded] at ran
      cases (Prod.mk.inj ran).1
    | some told =>
      rw [decoded] at ran
      obtain ⟨same, rfl⟩ := Prod.mk.inj ran
      obtain rfl := Except.ok.inj same
      rw [← fromUTF8?_eq_some.1 decoded]
      exact World.leadsToFile_of_read read

end FileAction

/-- A program that only looks: it leaves a world without a fault as it is, and what has been printed
makes no difference to it. -/
def FileProgram.OnlyLooks {α : Type} (p : FileProgram α) : Prop :=
  ∀ w : World, w.fault = none →
    ∃ x, ∀ output, p.run { w with output } = (x, { w with output })

namespace FileProgram

variable {α β : Type} {p : FileProgram α} {path : FilePath}

theorem onlyLooks_pure (x : α) : OnlyLooks (pure x) := fun _ _ => ⟨x, fun _ => rfl⟩

theorem OnlyLooks.bind {f : α → FileProgram β} (h : OnlyLooks p) (next : ∀ x, OnlyLooks (f x)) :
    OnlyLooks (p >>= f) := by
  intro w noFault
  obtain ⟨x, first⟩ := h w noFault
  obtain ⟨y, second⟩ := next x w noFault
  refine ⟨y, fun output => ?_⟩
  rw [run_bind, first]
  exact second output

theorem onlyLooks_kind (path : FilePath) : OnlyLooks (perform (.kind path)) :=
  fun w _ => ⟨(w.answer (.kind path)).1, fun _ => rfl⟩

theorem onlyLooks_read (path : FilePath) : OnlyLooks (perform (.read path)) :=
  fun w noFault => ⟨w.look path w.tree.read, fun output =>
    World.attempt_eq (w := { w with output }) noFault _⟩

theorem onlyLooks_list (path : FilePath) : OnlyLooks (perform (.list path)) :=
  fun w noFault => ⟨w.look path w.tree.list, fun output =>
    World.attempt_eq (w := { w with output }) noFault _⟩

theorem onlyLooks_canonical (path : FilePath) : OnlyLooks (perform (.canonical path)) :=
  fun w noFault => ⟨w.look path fun q =>
    (w.tree.find q).map fun _ => ⟨"" :: if q = [] then [""] else q⟩, fun output =>
    World.attempt_eq (w := { w with output }) noFault _⟩

theorem onlyLooks_isFile (path : FilePath) : OnlyLooks (isFile path) :=
  (onlyLooks_kind path).bind fun _ => onlyLooks_pure _

theorem onlyLooks_isDirectory (path : FilePath) : OnlyLooks (isDirectory path) :=
  (onlyLooks_kind path).bind fun _ => onlyLooks_pure _

theorem onlyLooks_readText (path : FilePath) : OnlyLooks (readText path) := by
  refine (onlyLooks_read path).bind fun reply => ?_
  split
  · exact onlyLooks_pure _
  · split <;> exact onlyLooks_pure _

end FileProgram

/-- An action that only looks. -/
def FileAction.OnlyLooks {α : Type} (a : FileAction α) : Prop := (ExceptT.run a).OnlyLooks

namespace FileAction

variable {α β : Type} {a : FileAction α} {w w' : World}

/-- What an action that only looks comes to, whatever has been printed. -/
theorem OnlyLooks.printed (h : OnlyLooks a) (noFault : w.fault = none) {x : Except Fault α}
    (yields : Yields a w x w') :
    w' = w ∧ ∀ output, Yields a { w with output } x { w with output } := by
  obtain ⟨y, ran⟩ := h w noFault
  obtain ⟨rfl, rfl⟩ := yields.unique (ran w.output)
  exact ⟨rfl, ran⟩

theorem OnlyLooks.yields (h : OnlyLooks a) (noFault : w.fault = none) :
    Yields a w ((ExceptT.run a).run w).1 w := by
  have ran := yields_run a w
  rwa [(h.printed noFault ran).1] at ran

theorem onlyLooks_pure (x : α) : OnlyLooks (pure x) := FileProgram.onlyLooks_pure _

theorem onlyLooks_throw (e : Fault) : OnlyLooks (throw e : FileAction α) :=
  FileProgram.onlyLooks_pure _

theorem onlyLooks_ofExcept (x : Except Fault α) : OnlyLooks (ofExcept x) :=
  FileProgram.onlyLooks_pure _

theorem onlyLooks_ofOption (e : Fault) (x : Option α) : OnlyLooks (ofOption e x) :=
  onlyLooks_ofExcept _

theorem OnlyLooks.bind {f : α → FileAction β} (h : OnlyLooks a) (next : ∀ x, OnlyLooks (f x)) :
    OnlyLooks (a >>= f) := by
  refine FileProgram.OnlyLooks.bind h fun result => ?_
  cases result with
  | error e => exact FileProgram.onlyLooks_pure _
  | ok x => exact next x

theorem OnlyLooks.inContext (h : OnlyLooks a) (doing : String) : OnlyLooks (a.inContext doing) :=
  FileProgram.OnlyLooks.bind h fun _ => FileProgram.onlyLooks_pure _

theorem onlyLooks_ofProgram {p : FileProgram α} (h : p.OnlyLooks) : OnlyLooks (ofProgram p) :=
  h.bind fun _ => FileProgram.onlyLooks_pure _

theorem onlyLooks_isFile (path : FilePath) : OnlyLooks (isFile path) :=
  onlyLooks_ofProgram (FileProgram.onlyLooks_isFile path)

theorem onlyLooks_isDirectory (path : FilePath) : OnlyLooks (isDirectory path) :=
  onlyLooks_ofProgram (FileProgram.onlyLooks_isDirectory path)

theorem onlyLooks_readText (path : FilePath) : OnlyLooks (readText path) :=
  (FileProgram.onlyLooks_readText path).bind fun _ => FileProgram.onlyLooks_pure _

/-- Whatever has been printed, an action comes to a value just if this is the right one, and it
leaves the world as it is but for what it prints. -/
def Concludes (a : FileAction α) (w : World) (right : α → Prop) : Prop :=
  ∀ before, ∃ result output,
    Yields a { w with output := before } result { w with output } ∧
      ∀ x, result = .ok x ↔ right x

section Concludes

variable {right right' : α → Prop}

theorem concludes_pure (x : α) (w : World) : Concludes (pure x) w (· = x) := fun before =>
  ⟨.ok x, before, yields_pure x _, fun y => by rw [Except.ok.injEq, eq_comm]⟩

theorem OnlyLooks.concludes (h : OnlyLooks a) (noFault : w.fault = none) :
    Concludes a w fun x => Yields a w (.ok x) w := by
  intro before
  obtain ⟨result, here⟩ : ∃ result, Yields a w result w := ⟨_, h.yields noFault⟩
  refine ⟨result, before, (h.printed noFault here).2 before, fun x => ?_⟩
  constructor
  · rintro rfl
    exact here
  · intro yields
    exact (here.unique yields).1

theorem Concludes.congr (h : Concludes a w right) (same : ∀ x, right x ↔ right' x) :
    Concludes a w right' := by
  intro before
  obtain ⟨result, output, yields, ends⟩ := h before
  exact ⟨result, output, yields, fun x => (ends x).trans (same x)⟩

/-- One action after the other. -/
theorem Concludes.bind {f : α → FileAction β} {next : α → β → Prop} (h : Concludes a w right)
    (onward : ∀ x, right x → Concludes (f x) w (next x)) :
    Concludes (a >>= f) w fun y => ∃ x, right x ∧ next x y := by
  intro before
  obtain ⟨result, said, first, ends⟩ := h before
  cases result with
  | error fault =>
    refine ⟨_, said, first.bind_error, fun y => ⟨nofun, ?_⟩⟩
    rintro ⟨x, isRight, -⟩
    cases (ends x).2 isRight
  | ok x =>
    have isRight := (ends x).1 rfl
    obtain ⟨result, output, second, ends'⟩ := onward x isRight said
    refine ⟨result, output, first.bind second, fun y => ?_⟩
    rw [ends']
    constructor
    · exact fun isNext => ⟨x, isRight, isNext⟩
    · rintro ⟨x', isRight', isNext⟩
      obtain rfl := Except.ok.inj ((ends x').2 isRight')
      exact isNext

theorem Concludes.inContext (h : Concludes a w right) (doing : String) :
    Concludes (a.inContext doing) w right := by
  intro before
  obtain ⟨result, output, yields, ends⟩ := h before
  exact ⟨_, output, yields.inContext, fun x => mapError_eq_ok.trans (ends x)⟩

end Concludes

end FileAction

end ProductSpec
