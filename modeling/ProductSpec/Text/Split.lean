/-
  Cutting a text at a separator: at every occurrence, at the first one, or into lines.
-/

namespace ProductSpec.Text

/-- The pieces between the occurrences of `sep`; there is one more piece than occurrences. -/
def split (sep : Char) : List Char → List (List Char)
  | [] => [[]]
  | c :: rest =>
    if c = sep then [] :: split sep rest
    else
      match split sep rest with
      | [] => [[c]]
      | piece :: pieces => (c :: piece) :: pieces

/-- The text before and after the first occurrence of `sep`. -/
def splitFirst (sep : Char) : List Char → Option (List Char × List Char)
  | [] => none
  | c :: rest =>
    if c = sep then some ([], rest)
    else (splitFirst sep rest).map fun (before, after) => (c :: before, after)

theorem length_splitFirst {sep : Char} {cs before after : List Char}
    (h : splitFirst sep cs = some (before, after)) : after.length < cs.length := by
  fun_induction splitFirst sep cs generalizing before after with
  | case1 => simp at h
  | case2 rest => simp_all
  | case3 c rest _ ih =>
    obtain ⟨⟨b, a⟩, found, same⟩ := Option.map_eq_some_iff.1 h
    obtain ⟨-, rfl⟩ := Prod.mk.inj same
    exact Nat.lt_succ_of_lt (ih found)

/-- What follows `start` in a text that begins with it. -/
def dropStart? : (start text : List Char) → Option (List Char)
  | [], text => some text
  | _ :: _, [] => none
  | s :: start, c :: text => if s = c then dropStart? start text else none

/-- What precedes `last` in a text that ends with that character. -/
def dropLast? (last : Char) : List Char → Option (List Char)
  | [] => none
  | [c] => if c = last then some [] else none
  | c :: rest => (dropLast? last rest).map (c :: ·)

/-- The text before and after the first occurrence of the text `sep`. -/
def splitFirstText (sep : List Char) : List Char → Option (List Char × List Char)
  | [] => (dropStart? sep []).map ([], ·)
  | c :: rest =>
    match dropStart? sep (c :: rest) with
    | some after => some ([], after)
    | none => (splitFirstText sep rest).map fun (before, after) => (c :: before, after)

/-- One carriage return at the end of a line belongs to the line break. -/
def dropReturn (line : List Char) : List Char := (dropLast? '\r' line).getD line

/-- The lines of a text. A line break ends a line, so a text that ends with one has no empty
last line. -/
def lines (cs : List Char) : List (List Char) :=
  let pieces := split '\n' cs
  let whole := if pieces.getLast? = some [] then pieces.dropLast else pieces
  (whole.zipIdx).map fun (line, i) => if i + 1 < pieces.length then dropReturn line else line

/-- The pieces of a text with `sep` written between them. -/
def join (sep : String) (pieces : List String) : String := sep.intercalate pieces

example : split ',' "a,,b".toList = ["a".toList, [], "b".toList] := by decide
example : lines "a\r\n\nb".toList = ["a".toList, [], "b".toList] := by decide
example : splitFirst ':' "k:v:w".toList = some ("k".toList, "v:w".toList) := by decide

end ProductSpec.Text
