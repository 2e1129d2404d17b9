/-
  File trees: what is where below the root of a file system. A place is given by the names on the
  way to it. Every operation either succeeds or leaves the tree as it is.
-/
import ProductSpec.File.Program

namespace ProductSpec

/-- A place in a tree. -/
abbrev FilePlace := List String

inductive FileEntry
  | directory
  /-- A file with its content and the instant of its last change. -/
  | file (content : ByteArray) (modified : Int)
deriving Inhabited

def FileEntry.kind : FileEntry → FileKind
  | directory => .directory
  | file .. => .file

structure FileTree where
  entries : List (FilePlace × FileEntry)
deriving Inhabited

namespace FileTree

def empty : FileTree := ⟨[]⟩

/-- What is at a place. The root is always a directory. -/
def get? (t : FileTree) (p : FilePlace) : Option FileEntry :=
  if p = [] then some .directory else t.entries.lookup p

def erase (t : FileTree) (p : FilePlace) : FileTree := ⟨t.entries.filter fun e => e.1 != p⟩

def set (t : FileTree) (p : FilePlace) (e : FileEntry) : FileTree := ⟨(p, e) :: (t.erase p).entries⟩

/-- What is left after a place and everything below it has gone. -/
def eraseBelow (t : FileTree) (p : FilePlace) : FileTree :=
  ⟨t.entries.filter fun e => !p.isPrefixOf e.1⟩

/-- The same with everything at and below one place at another one. -/
def move (t : FileTree) (source target : FilePlace) : FileTree :=
  ⟨t.entries.map fun (p, e) =>
    (if source.isPrefixOf p then target ++ p.drop source.length else p, e)⟩

/-- The names in a directory. -/
def children (t : FileTree) (p : FilePlace) : List (String × FileKind) :=
  t.entries.filterMap fun (q, e) =>
    match q.getLast? with
    | some name => if q.dropLast = p then some (name, e.kind) else none
    | none => none

/-- The place of a path as seen from a directory. Whatever is on the way must be a directory; a
point stays where it is, and two points lead back. -/
def walk (t : FileTree) : FilePlace → List String → Except FileError FilePlace
  | here, [] => .ok here
  | here, piece :: rest =>
    match t.get? here with
    | none => if piece = "" ∧ rest = [] then .ok here else .error .notFound
    | some (.file ..) => .error .notDirectory
    | some .directory =>
      if piece = "" ∨ piece = "." then t.walk here rest
      else if piece = ".." then t.walk here.dropLast rest
      else t.walk (here ++ [piece]) rest

/-- The place that a path names. The empty path names none, and no name holds a zero character. -/
def place (t : FileTree) (directory : FilePlace) (p : FilePath) : Except FileError FilePlace :=
  if p.isEmpty then .error .notFound
  else if p.pieces.any fun piece => '\x00' ∈ piece.toList then
    .error (.system "file name contained an unexpected NUL byte")
  else if p.isAbsolute then t.walk [] p.pieces
  else t.walk directory p.pieces

/-- What is at a place, which has to be there. -/
def find (t : FileTree) (p : FilePlace) : Except FileError FileEntry :=
  match t.get? p with
  | some e => .ok e
  | none => .error .notFound

def read (t : FileTree) (p : FilePlace) : Except FileError ByteArray := do
  match ← t.find p with
  | .file content _ => return content
  | .directory => throw .isDirectory

def list (t : FileTree) (p : FilePlace) : Except FileError (List (String × FileKind)) := do
  match ← t.find p with
  | .directory => return t.children p
  | .file .. => throw .notDirectory

/-- A directory has no time of its own: it counts as changed just now. -/
def modified (t : FileTree) (p : FilePlace) (now : Int) : Except FileError Int := do
  match ← t.find p with
  | .file _ time => return time
  | .directory => return now

def createDirectory (t : FileTree) (p : FilePlace) : Except FileError FileTree :=
  match t.get? p with
  | some _ => .error .alreadyExists
  | none => .ok (t.set p .directory)

def createFile (t : FileTree) (p : FilePlace) (now : Int) : Except FileError FileTree :=
  match t.get? p with
  | some _ => .error .alreadyExists
  | none => .ok (t.set p (.file .empty now))

/-- A file is created or loses its old content. -/
def write (t : FileTree) (p : FilePlace) (content : ByteArray) (now : Int) :
    Except FileError FileTree :=
  match t.get? p with
  | some .directory => .error .isDirectory
  | _ => .ok (t.set p (.file content now))

def append (t : FileTree) (p : FilePlace) (content : ByteArray) (now : Int) :
    Except FileError FileTree :=
  match t.get? p with
  | some .directory => .error .isDirectory
  | some (.file old _) => .ok (t.set p (.file (old ++ content) now))
  | none => .ok (t.set p (.file content now))

def copy (t : FileTree) (source target : FilePlace) (now : Int) : Except FileError FileTree := do
  t.write target (← t.read source) now

/-- Whether something may move to a place. A file replaces a file and a directory an empty one. -/
def checkTarget (t : FileTree) (source : FileEntry) (target : FilePlace) :
    Except FileError Unit :=
  match source, t.get? target with
  | _, none => .ok ()
  | .file .., some .directory => .error .isDirectory
  | .file .., some (.file ..) => .ok ()
  | .directory, some (.file ..) => .error .notDirectory
  | .directory, some .directory =>
    if (t.children target).isEmpty then .ok () else .error .notEmpty

def rename (t : FileTree) (source target : FilePlace) : Except FileError FileTree := do
  let e ← t.find source
  if source = target then return t
  if source.isPrefixOf target then throw .insideItself
  t.checkTarget e target
  return (t.erase target).move source target

def removeFile (t : FileTree) (p : FilePlace) : Except FileError FileTree := do
  match ← t.find p with
  | .file .. => return t.erase p
  | .directory => throw .isDirectory

def removeTree (t : FileTree) (p : FilePlace) : Except FileError FileTree := do
  match ← t.find p with
  | .directory => return t.eraseBelow p
  | .file .. => throw .notDirectory

end FileTree

end ProductSpec
