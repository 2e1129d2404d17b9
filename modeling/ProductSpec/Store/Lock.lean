/-
  Locks: files that keep a second writer out for as long as they exist. A lock tells when it was
  taken; one that is more than ten minutes old was left behind and may be broken.
-/
import ProductSpec.Fault
import ProductSpec.Timestamp

namespace ProductSpec.Lock

open FileProgram

/-- The line in which a lock tells when it was taken. -/
def takenLine (time : Timestamp) : String := "created_at=" ++ time.text ++ "\n"

/-- The time that the first such line tells. -/
def takenAt? (text : String) : Option Timestamp := do
  let told ← (Text.lines text.toList).findSome? (Text.dropStart? "created_at=".toList)
  Timestamp.read? (String.ofList (Text.trim told))

/-- The nanoseconds after which a lock is stale. -/
def staleAge : Int := 600 * Timestamp.perSecond

/-- The instant at which a lock was taken: as it tells, else when its file was last changed. -/
def instant? (path : FilePath) : FileProgram (Option Int) := do
  match (← readText path).toOption.bind takenAt? with
  | some time => return some time.instant
  | none => return (← perform (.modified path)).toOption

def isStale (path : FilePath) : FileProgram Bool := do
  match ← instant? path with
  | none => return false
  | some taken =>
    let now ← perform .now
    return staleAge < now.instant - taken

/-- Creates the file of a lock. Nothing is done if something is already there. -/
def create (path : FilePath) : FileAction Bool := do
  match ← FileAction.ofProgram (perform (.createFile path)) with
  | .error .alreadyExists => return false
  | .error e => throw (.file e)
  | .ok () =>
    let now ← FileAction.ofProgram (perform .now)
    FileAction.ofFile (perform (.append path (takenLine now).toUTF8))
    return true

/-- Removes a stale lock, which may have gone in the meantime. -/
def discard (path : FilePath) : FileAction Unit := do
  match ← FileAction.ofProgram (perform (.removeFile path)) with
  | .ok () | .error .notFound => return ()
  | .error e => throw (.file e)

/-- Takes a lock if nobody holds it. -/
def take (path : FilePath) : FileAction Bool := do
  if ← create path then return true
  if !(← FileAction.ofProgram (isStale path)) then return false
  discard path
  create path

def release (path : FilePath) : FileAction Unit :=
  FileAction.ofFile (perform (.removeFile path))

/-- Takes a lock, trying again until the attempts are used up. -/
def wait : (attempts : Nat) → FilePath → FileAction Unit
  | 0, path => throw (.file (.timedOut path.text))
  | attempts + 1, path => do
    if ← take path then return ()
    FileAction.ofProgram (perform (.pause 20))
    wait attempts path

end ProductSpec.Lock
