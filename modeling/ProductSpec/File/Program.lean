/-
  Programs that work with files. A program asks for one operation after the other and goes on with
  the replies; what the operations do is left to whoever runs it.
-/
import ProductSpec.File.Error
import ProductSpec.File.Path
import ProductSpec.Timestamp

namespace ProductSpec

inductive FileKind
  | file
  | directory
deriving DecidableEq, Repr, Inhabited

/-- An operation. -/
inductive FileRequest
  /-- The time. -/
  | now
  /-- What is at a path, if anything. -/
  | kind (path : FilePath)
  | read (path : FilePath)
  /-- The names in a directory, in no particular order. -/
  | list (path : FilePath)
  /-- When a file was last changed, in nanoseconds since the beginning of 1970. -/
  | modified (path : FilePath)
  /-- The absolute path without detours. -/
  | canonical (path : FilePath)
  | createDirectory (path : FilePath)
  /-- An empty file where nothing is yet. -/
  | createFile (path : FilePath)
  | write (path : FilePath) (content : ByteArray)
  | append (path : FilePath) (content : ByteArray)
  | copy (source target : FilePath)
  | rename (source target : FilePath)
  | removeFile (path : FilePath)
  /-- A directory with everything in it. -/
  | removeTree (path : FilePath)
  | pause (milliseconds : Nat)
  | print (text : String)

/-- The reply to an operation. Every operation but the harmless ones may fail. -/
abbrev FileRequest.Reply : FileRequest → Type
  | now => Timestamp
  | kind _ => Option FileKind
  | read _ => Except FileError ByteArray
  | list _ => Except FileError (List (String × FileKind))
  | modified _ => Except FileError Int
  | canonical _ => Except FileError FilePath
  | createDirectory _ | createFile _ | write _ _ | append _ _ | copy _ _ | rename _ _ |
    removeFile _ | removeTree _ => Except FileError Unit
  | pause _ | print _ => Unit

inductive FileProgram (α : Type) : Type
  | done (result : α)
  | ask (request : FileRequest) (next : request.Reply → FileProgram α)

namespace FileProgram

variable {α β : Type}

/-- Goes on with the result of a program. -/
def andThen : FileProgram α → (α → FileProgram β) → FileProgram β
  | done a, f => f a
  | ask request next, f => ask request fun reply => (next reply).andThen f

instance : Monad FileProgram where
  pure := done
  bind := andThen

/-- A single operation. -/
def perform (request : FileRequest) : FileProgram request.Reply := ask request done

def exists? (path : FilePath) : FileProgram Bool := do
  return (← perform (.kind path)).isSome

def isFile (path : FilePath) : FileProgram Bool := do
  return (← perform (.kind path)) == some .file

def isDirectory (path : FilePath) : FileProgram Bool := do
  return (← perform (.kind path)) == some .directory

def readText (path : FilePath) : FileProgram (Except FileError String) := do
  match ← perform (.read path) with
  | .error e => return .error e
  | .ok bytes =>
    match String.fromUTF8? bytes with
    | some text => return .ok text
    | none => return .error .notText

def writeText (path : FilePath) (text : String) : FileProgram (Except FileError Unit) :=
  perform (.write path text.toUTF8)

/-- Creates a directory and those around it that are missing, at most so many of them. -/
def createDirectoriesFrom : Nat → FilePath → FileProgram (Except FileError Unit)
  | 0, path => perform (.createDirectory path)
  | depth + 1, path => do
    if path.isEmpty then return .ok ()
    match ← perform (.createDirectory path) with
    | .ok () => return .ok ()
    | .error .notFound =>
      match path.parent? with
      | none => return .error .notFound
      | some parent =>
        match ← createDirectoriesFrom depth parent with
        | .error e => return .error e
        | .ok () =>
          match ← perform (.createDirectory path) with
          | .ok () => return .ok ()
          | .error e => return if ← isDirectory path then .ok () else .error e
    | .error e => return if ← isDirectory path then .ok () else .error e

/-- Creates a directory and those around it that are missing. -/
def createDirectories (path : FilePath) : FileProgram (Except FileError Unit) :=
  createDirectoriesFrom path.pieces.length path

end FileProgram

end ProductSpec
