/-
  The program on the command line. Here the operations on files are carried out for good.
-/
import ProductSpec.Command.Run
import Std.Time.DateTime.Timestamp

namespace ProductSpec.Main

/-- The number of a failure in the operating system. -/
def errorNumber? : IO.Error → Option UInt32
  | .alreadyExists _ n _ | .invalidArgument _ n _ | .permissionDenied _ n _
  | .resourceExhausted _ n _ | .inappropriateType _ n _ | .noSuchThing _ n _ => some n
  | .noFileOrDirectory _ n _ | .interrupted _ n _ => some n
  | .otherError n _ | .resourceBusy n _ | .resourceVanished n _ | .unsupportedOperation n _
  | .hardwareFault n _ | .unsatisfiedConstraints n _ | .illegalOperation n _
  | .protocolError n _ | .timeExpired n _ => some n
  | .unexpectedEof | .userError _ => none

/-- Why an operation failed. Some of them give the number with a minus sign. -/
def fileError (e : IO.Error) : FileError :=
  match (errorNumber? e).map fun n => min n (-n) with
  | some 2 => .notFound
  | some 17 => .alreadyExists
  | some 20 => .notDirectory
  | some 21 => .isDirectory
  | some 22 => .insideItself
  | some 39 => .notEmpty
  | _ => .system (toString e)

/-- An operation that may fail. -/
def attempt {α : Type} (operation : IO α) : IO (Except FileError α) := do
  try return .ok (← operation) catch e => return .error (fileError e)

/-- A path as the file system takes it. -/
def entry (path : FilePath) : IO.FS.DirEntry := ⟨path.text, ""⟩

def kindOf (type : IO.FS.FileType) : FileKind :=
  match type with
  | .dir => .directory
  | _ => .file

def kind (path : FilePath) : IO (Option FileKind) := do
  try return some (kindOf (← (entry path).root.metadata).type) catch _ => return none

def list (path : FilePath) : IO (List (String × FileKind)) := do
  let entries ← (entry path).root.readDir
  entries.toList.mapM fun e => do return (e.fileName, kindOf (← e.path.metadata).type)

def modified (path : FilePath) : IO Int := do
  let time := (← (entry path).root.metadata).modified
  return time.sec * Timestamp.perSecond + time.nsec.toNat

def canonical (path : FilePath) : IO FilePath := do
  let _ ← (entry path).root.metadata
  return .ofText (toString (← IO.FS.realPath path.text))

def append (path : FilePath) (content : ByteArray) : IO Unit :=
  IO.FS.withFile path.text .append fun handle => handle.write content

def now : IO Timestamp := do
  return .ofClock (← Std.Time.Timestamp.now).toNanosecondsSinceUnixEpoch.val

/-- Carries out an operation. -/
def answer : (request : FileRequest) → IO request.Reply
  | .now => now
  | .kind path => kind path
  | .read path => attempt (IO.FS.readBinFile path.text)
  | .list path => attempt (list path)
  | .modified path => attempt (modified path)
  | .canonical path => attempt (canonical path)
  | .createDirectory path => attempt (IO.FS.createDir path.text)
  | .createFile path => attempt (IO.FS.withFile path.text .writeNew fun _ => return ())
  | .write path content => attempt (IO.FS.writeBinFile path.text content)
  | .append path content => attempt (append path content)
  | .copy source target => attempt do
    IO.FS.writeBinFile target.text (← IO.FS.readBinFile source.text)
  | .rename source target => attempt (IO.FS.rename source.text target.text)
  | .removeFile path => attempt (IO.FS.removeFile path.text)
  | .removeTree path => attempt (IO.FS.removeDirAll path.text)
  | .pause milliseconds => IO.sleep milliseconds.toUInt32
  | .print text => do (← IO.getStdout).putStr text

def execute {α : Type} : FileProgram α → IO α
  | .done result => return result
  | .ask request next => do execute (next (← answer request))

/-- The variables of the environment. Each one ends with a zero byte. -/
def environment : IO Environment := do
  match String.fromUTF8? (← IO.FS.readBinFile "/proc/self/environ") with
  | none => return []
  | some text =>
    return (Text.split '\x00' text.toList).filterMap fun variable_ =>
      (Text.splitFirst '=' variable_).map fun (name, value) =>
        (String.ofList name, String.ofList value)

end ProductSpec.Main

def main (arguments : List String) : IO UInt32 := do
  let environment ← ProductSpec.Main.environment
  let exit ← ProductSpec.Main.execute (ProductSpec.runProgram environment arguments)
  (← IO.getStderr).putStr exit.complaint
  return exit.code.toUInt32
