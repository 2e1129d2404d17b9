/-
  Paths of files: texts that are cut at their slashes. A path is kept as it was written, so that
  it can be shown again; only the looking up of a path gives it a meaning.
-/
import ProductSpec.Text.Split

namespace ProductSpec

/-- A path by the pieces between its slashes. -/
structure FilePath where
  pieces : List String
deriving DecidableEq, Repr, Inhabited

namespace FilePath

def ofText (s : String) : FilePath := ⟨(Text.split '/' s.toList).map String.ofList⟩

def text (p : FilePath) : String := Text.join "/" p.pieces

instance : Coe String FilePath := ⟨ofText⟩

def isEmpty (p : FilePath) : Bool := p.pieces == [""]

/-- Whether a path starts at the root of the file system. -/
def isAbsolute (p : FilePath) : Bool :=
  match p.pieces with
  | "" :: _ :: _ => true
  | _ => false

/-- A path seen from a directory. An absolute path stays what it is. -/
def join (directory p : FilePath) : FilePath :=
  if p.isAbsolute || directory.isEmpty then p
  else if directory.pieces.getLast? = some "" then ⟨directory.pieces.dropLast ++ p.pieces⟩
  else ⟨directory.pieces ++ p.pieces⟩

/-- Whether a path is written with a slash at its end, as only that of a directory may be. -/
def endsInSlash (p : FilePath) : Bool := p.pieces.getLast? == some ""

/-- The pieces that are names, each with its place: neither an empty piece nor a point behind the
first piece is one. -/
def names (p : FilePath) : List (String × Nat) :=
  p.pieces.zipIdx.filter fun (piece, i) => piece ≠ "" && (piece ≠ "." || i == 0)

/-- The directory of what a path names. -/
def parent? (p : FilePath) : Option FilePath :=
  match p.names.reverse with
  | [] => none
  | [_] => some (if p.isAbsolute then ⟨["", ""]⟩ else ⟨[""]⟩)
  | _ :: (_, i) :: _ => some ⟨p.pieces.take (i + 1)⟩

/-- The last name of a path. -/
def name? (p : FilePath) : Option String :=
  match p.names.getLast? with
  | some (piece, _) => if piece = "." ∨ piece = ".." then none else some piece
  | none => none

/-- A name cut at its last point. A name that only begins with a point has no extension. -/
def splitExtension (name : String) : String × Option String :=
  match Text.splitFirst '.' name.toList.reverse with
  | some (extension, stem) =>
    if stem.isEmpty then (name, none)
    else (String.ofList stem.reverse, some (String.ofList extension.reverse))
  | none => (name, none)

def stem? (p : FilePath) : Option String := p.name?.map fun name => (splitExtension name).1

def extension? (p : FilePath) : Option String := p.name?.bind fun name => (splitExtension name).2

example : (join "p" "definitions/a.yaml").text = "p/definitions/a.yaml" := rfl
example : (join "p/" "/abs").text = "/abs" ∧ (join "p/" "x").text = "p/x" := ⟨rfl, rfl⟩
example : ((ofText "a//b/.").parent?).map text = some "a" := rfl
example : ((ofText "/a").parent?).map text = some "/" := rfl
example : (ofText "x/.hidden").extension? = none ∧
    (ofText "a.b.yaml").stem? = some "a.b" := ⟨rfl, rfl⟩

end FilePath

end ProductSpec
