/-
  File patterns: which file names a definition is meant for. From the left, each `{` up to the
  next `}` is a wildcard; all other text stands for itself.
-/
import ProductSpec.Text.Split

namespace ProductSpec

/-- A part of a file pattern: one character, or one or more characters other than a line break. -/
inductive PatternPart
  | char (c : Char)
  | wildcard
deriving DecidableEq, Repr

namespace PatternPart

/-- Reads a pattern. A `{` that is not closed stands for itself with everything after it. -/
def read : List Char → List PatternPart
  | [] => []
  | '{' :: rest =>
    match h : Text.splitFirst '}' rest with
    | some (_, after) =>
      have := Text.length_splitFirst h
      wildcard :: read after
    | none => char '{' :: rest.map char
  | c :: rest => char c :: read rest
termination_by cs => cs.length

/-- Whether a part followed by others matches each end of a name, given whether the others do:
the answers for a name and its ends, the empty end last. -/
def matchRow (part : PatternPart) : List Char → List Bool → List Bool
  | c :: cs, _ :: others =>
    let row := matchRow part cs others
    let here := match part with
      | char d => c == d && others.headD false
      | wildcard => c != '\n' && (others.headD false || row.headD false)
    here :: row
  | _, _ => [false]

/-- The answers of the empty pattern: only the empty end matches. -/
def matchNone (name : List Char) : List Bool := List.replicate name.length false ++ [true]

/-- Whether the parts match each end of a name. -/
def matchEnds (name : List Char) : List PatternPart → List Bool
  | [] => matchNone name
  | part :: rest => matchRow part name (matchEnds name rest)

end PatternPart

/-- Whether a whole file name is of the form that a pattern describes. -/
def matchesFilePattern (pattern name : String) : Bool :=
  (PatternPart.matchEnds name.toList (PatternPart.read pattern.toList)).headD false

end ProductSpec
