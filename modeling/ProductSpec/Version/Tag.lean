/-
  Tags: versions as people write them, and the directories they are kept in. A tag may begin
  with `v` and may leave out the last one or two numbers, which are then zero.
-/
import ProductSpec.Number.Word
import ProductSpec.Text.Split
import ProductSpec.Version.Basic

namespace ProductSpec

open Number Text

namespace Version

/-- A number of 64 bits without leading zeros. -/
def number? (cs : List Char) : Option Nat :=
  if cs.isEmpty ∨ ¬ cs.all Char.isDigit ∨ (1 < cs.length ∧ cs.head? = some '0') then none
  else
    let n := cs.foldl (fun n c => 10 * n + (c.toNat - 48)) 0
    if fitsNat64 n then some n else none

def isIdentifierChar (c : Char) : Bool := c.isAlphanum || c == '-'

/-- An identifier of a pre-release is not a number with leading zeros. -/
def isIdentifier (leadingZeros : Bool) (cs : List Char) : Bool :=
  !cs.isEmpty && cs.all isIdentifierChar &&
    (leadingZeros || !cs.all Char.isDigit || cs.length == 1 || cs.head? != some '0')

/-- Identifiers with points between them. -/
def identifiers? (leadingZeros : Bool) (cs : List Char) : Option (List String) :=
  let parts := split '.' cs
  if parts.all (isIdentifier leadingZeros) then some (parts.map String.ofList) else none

/-- What follows the numbers: `-` and a pre-release, `+` and a build, either one or both. -/
def suffix? : List Char → Option (List String × List String)
  | [] => some ([], [])
  | '-' :: rest =>
    match splitFirst '+' rest with
    | some (pre, build) => do return (← identifiers? false pre, ← identifiers? true build)
    | none => do return (← identifiers? false rest, [])
  | '+' :: rest => do return ([], ← identifiers? true rest)
  | _ => none

def isSuffixStart (c : Char) : Bool := c == '-' || c == '+'

/-- One to three numbers with points between them. -/
def core? (cs : List Char) : Option (Nat × Nat × Nat) :=
  match split '.' cs with
  | [a] => do return (← number? a, 0, 0)
  | [a, b] => do return (← number? a, ← number? b, 0)
  | [a, b, c] => do return (← number? a, ← number? b, ← number? c)
  | _ => none

/-- The tag without one leading `v`. -/
def bareTag (tag : List Char) : List Char := (dropStart? ['v'] tag).getD tag

/-- Reads a version with all of its numbers. -/
def read? (text : String) : Option Version := do
  let cs := text.toList
  match split '.' (cs.takeWhile (!isSuffixStart ·)) with
  | [a, b, c] =>
    let (pre, build) ← suffix? (cs.dropWhile (!isSuffixStart ·))
    return ⟨← number? a, ← number? b, ← number? c, pre, build⟩
  | _ => none

/-- The version that a tag names. -/
def ofTag? (tag : String) : Option Version := do
  let bare := bareTag tag.toList
  let (major, minor, patch) ← core? (bare.takeWhile (!isSuffixStart ·))
  let (pre, build) ← suffix? (bare.dropWhile (!isSuffixStart ·))
  return ⟨major, minor, patch, pre, build⟩

/-- The version of a tag that may name a directory: not `latest`, no separator in it and no point
in front. -/
def ofCheckedTag? (tag : String) : Option Version :=
  if tag = "latest" ∨ tag.toList.any (fun c => c == '/' || c == '\\') ∨
      tag.toList.head? = some '.' then none
  else ofTag? tag

/-- The directory of a tag: the tag with one `v` in front. -/
def dirName (tag : String) : String :=
  if tag.toList.head? = some 'v' then tag else "v" ++ tag

end Version

end ProductSpec
