/-
  Conventions: the names by which files say which projects they follow. A specification is NAME,
  `NAME-[]` or `NAME-[].[]`, each `[]` standing for a version number.
-/
import ProductSpec.Text.Blank
import ProductSpec.Text.Digit
import ProductSpec.Text.Split

namespace ProductSpec

open Text

/-- Which conventions a project answers to. -/
structure ConventionSpec where
  name : String
  hasMajor : Bool
  hasMinor : Bool
deriving DecidableEq, Repr, Inhabited

namespace ConventionSpec

/-- Reads a specification; blank characters around it do not count. -/
def parse? (text : String) : Option ConventionSpec :=
  let cs := trim text.toList
  let name := cs.takeWhile Char.isAlphanum
  let version := cs.dropWhile Char.isAlphanum
  if name.isEmpty then none
  else if version = [] then some ⟨String.ofList name, false, false⟩
  else if version = "-[]".toList then some ⟨String.ofList name, true, false⟩
  else if version = "-[].[]".toList then some ⟨String.ofList name, true, true⟩
  else none

/-- Drops a mark and the digits after it; there has to be a digit. -/
def dropNumber? (mark : Char) (cs : List Char) : Option (List Char) := do
  let rest ← dropStart? [mark] cs
  if (rest.head?.map isDecimalDigit).getD false then some (rest.dropWhile isDecimalDigit) else none

/-- What has to follow the name and the version numbers: nothing, `-` or `.`. -/
def isBoundary : List Char → Bool
  | [] => true
  | c :: _ => c == '-' || c == '.'

/-- Whether a convention of a file names the project. -/
def «matches» (spec : ConventionSpec) (convention : String) : Bool :=
  let rest? := do
    let afterName ← dropStart? spec.name.toList convention.toList
    let afterMajor ← if spec.hasMajor then dropNumber? '-' afterName else some afterName
    if spec.hasMinor then dropNumber? '.' afterMajor else some afterMajor
  (rest?.map isBoundary).getD false

def isSeparator (c : Char) : Bool := isBlank c || c == ','

/-- The conventions named in a text, between blank characters and commas. -/
def conventions (text : String) : List String :=
  (runsWithout isSeparator text.toList).map String.ofList

end ConventionSpec

end ProductSpec
