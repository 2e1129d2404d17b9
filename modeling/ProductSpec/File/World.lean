/-
  Running a program on a file tree. One operation may be made to fail: a fault says how many
  operations that can fail come before it, and why it does.
-/
import ProductSpec.File.Tree

namespace ProductSpec

/-- What a program works with. -/
structure World where
  tree : FileTree
  /-- The directory from which paths are seen. -/
  directory : FilePlace
  /-- The nanoseconds since the beginning of 1970. -/
  clock : Int
  output : String
  fault : Option (Nat × FileError)
deriving Inhabited

namespace World

variable {α : Type}

/-- An operation that looks at the tree. -/
def look (w : World) (p : FilePath) (f : FilePlace → Except FileError α) : Except FileError α :=
  (w.tree.place w.directory p).bind f

/-- An operation that changes the tree at the place of a path. -/
def change (w : World) (p : FilePath) (f : FilePlace → Except FileError FileTree) :
    Except FileError Unit × World :=
  match w.look p f with
  | .ok tree => (.ok (), { w with tree })
  | .error e => (.error e, w)

/-- An operation that changes the tree at the place of a file. No file is made under a path that
ends in a slash. -/
def changeFile (w : World) (p : FilePath) (f : FilePlace → Except FileError FileTree) :
    Except FileError Unit × World :=
  w.change p fun q => if p.endsInSlash then .error .isDirectory else f q

/-- An operation that changes the tree at the places of two paths. -/
def changeBoth (w : World) (p q : FilePath)
    (f : FilePlace → FilePlace → Except FileError FileTree) : Except FileError Unit × World :=
  w.change p fun source => w.look q fun target => f source target

/-- An operation that fails if the fault has come. -/
def attempt (w : World) (f : World → Except FileError α × World) : Except FileError α × World :=
  match w.fault with
  | none => f w
  | some (0, e) => (.error e, { w with fault := none })
  | some (n + 1, e) => f { w with fault := some (n, e) }

/-- The reply to an operation and what becomes of the world. -/
def answer (w : World) : (request : FileRequest) → request.Reply × World
  | .now => (.ofClock w.clock, w)
  | .kind p =>
    (match w.look p w.tree.find with
      | .ok e => some e.kind
      | .error _ => none, w)
  | .read p => w.attempt fun w => (w.look p w.tree.read, w)
  | .list p => w.attempt fun w => (w.look p w.tree.list, w)
  | .modified p => w.attempt fun w => (w.look p fun q => w.tree.modified q w.clock, w)
  | .canonical p => w.attempt fun w =>
    (w.look p fun q => (w.tree.find q).map fun _ => ⟨"" :: if q = [] then [""] else q⟩, w)
  | .createDirectory p => w.attempt fun w => w.change p w.tree.createDirectory
  | .createFile p => w.attempt fun w => w.changeFile p fun q => w.tree.createFile q w.clock
  | .write p content => w.attempt fun w => w.changeFile p fun q => w.tree.write q content w.clock
  | .append p content => w.attempt fun w => w.changeFile p fun q => w.tree.append q content w.clock
  | .copy p q => w.attempt fun w => w.changeBoth p q fun s t =>
    if q.endsInSlash then .error .isDirectory else w.tree.copy s t w.clock
  | .rename p q => w.attempt fun w => w.changeBoth p q w.tree.rename
  | .removeFile p => w.attempt fun w => w.change p w.tree.removeFile
  | .removeTree p => w.attempt fun w => w.change p w.tree.removeTree
  | .pause ms => ((), { w with clock := w.clock + ms * 1000000 })
  | .print text => ((), { w with output := w.output ++ text })

end World

namespace FileProgram

variable {α β : Type}

/-- The result of a program and what it makes of a world. -/
def run : FileProgram α → World → α × World
  | done a, w => (a, w)
  | ask request next, w => (next (w.answer request).1).run (w.answer request).2

@[simp] theorem run_pure (a : α) (w : World) : (pure a : FileProgram α).run w = (a, w) := rfl

@[simp] theorem run_bind (p : FileProgram α) (f : α → FileProgram β) (w : World) :
    (p >>= f).run w = (f (p.run w).1).run (p.run w).2 := by
  induction p generalizing w with
  | done a => rfl
  | ask request next ih => exact ih _ _

@[simp] theorem run_perform (request : FileRequest) (w : World) :
    (perform request).run w = w.answer request := rfl

end FileProgram

end ProductSpec
