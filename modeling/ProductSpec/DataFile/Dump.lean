/-
  Data files kept as documents.
-/
import ProductSpec.DataFile.Codec
import ProductSpec.Store.Load

namespace ProductSpec.DataFile

open FileAction

def load (path : FilePath) : FileAction DataFile := readDocument FileGroup.decode path

/-- Writes a file and makes the directories around it. -/
def save (file : DataFile) (path : FilePath) : FileAction Unit := do
  match path.parent? with
  | some directory => createDirectories directory
  | none => pure ()
  writeText path file.toJson.pretty

end ProductSpec.DataFile
