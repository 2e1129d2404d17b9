/-
  Why an operation on files fails.
-/

namespace ProductSpec

inductive FileError
  | notFound
  | alreadyExists
  | notDirectory
  | isDirectory
  | notEmpty
  /-- A directory cannot move into itself. -/
  | insideItself
  /-- The content is no text. -/
  | notText
  /-- A file that would be overwritten. -/
  | occupied (path : String)
  | timedOut (path : String)
  /-- Any other reason that the system gives. -/
  | system (reason : String)
deriving DecidableEq, Repr, Inhabited

def FileError.message : FileError → String
  | notFound => "No such file or directory (os error 2)"
  | alreadyExists => "File exists (os error 17)"
  | notDirectory => "Not a directory (os error 20)"
  | isDirectory => "Is a directory (os error 21)"
  | notEmpty => "Directory not empty (os error 39)"
  | insideItself => "Invalid argument (os error 22)"
  | notText => "stream did not contain valid UTF-8"
  | occupied path => path ++ " already exists, not overwriting"
  | timedOut path => "timed out waiting for " ++ path
  | system reason => reason

end ProductSpec
