/-
  Lists of checksums: one line for each file, the checksum, two blanks and the name.
-/
import ProductSpec.Checksum.Sha256
import ProductSpec.NameMap
import ProductSpec.Text.Blank
import ProductSpec.Text.Split

namespace ProductSpec

open Text

/-- The checksum of a content. -/
def checksum (content : ByteArray) : String := String.ofList (Sha256.hexDigest content.toList)

/-- The checksums of files, by name. -/
structure ChecksumList where
  entries : NameMap String
deriving DecidableEq

namespace ChecksumList

def empty : ChecksumList := ⟨∅⟩

def insert (l : ChecksumList) (file checksum : String) : ChecksumList :=
  ⟨l.entries.insert file checksum⟩

def get? (l : ChecksumList) (file : String) : Option String := l.entries.get? file

def renderLine (entry : String × String) : String := entry.2 ++ "  " ++ entry.1 ++ "\n"

def render (l : ChecksumList) : String := String.join (l.entries.toList.map renderLine)

/-- The file and the checksum of a line; the line itself if there are no two blanks in it. -/
def parseLine (line : List Char) : Except String (String × String) :=
  match splitFirstText [' ', ' '] line with
  | some (checksum, file) => .ok (String.ofList (trim file), String.ofList (trim checksum))
  | none => .error (String.ofList line)

/-- Reads a list. Blank lines are passed over, and of two lines for one file the later counts;
a line that cannot be read is the error. -/
def parse (text : String) : Except String ChecksumList := do
  let filled := (lines text.toList).filter fun line => !(trim line).isEmpty
  let entries ← filled.mapM parseLine
  return ⟨NameMap.ofList entries⟩

end ChecksumList

end ProductSpec
