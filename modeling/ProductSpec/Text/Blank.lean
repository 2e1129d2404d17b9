/-
  White space and the runs between it. The blank characters are those with the Unicode
  property White_Space; a text is trimmed of them at both ends or cut into its words.
-/

namespace ProductSpec.Text

/-- The 25 code points with the Unicode property White_Space. -/
def isBlank (c : Char) : Bool :=
  let n := c.toNat
  (9 ≤ n && n ≤ 13) || n == 0x20 || n == 0x85 || n == 0xA0 || n == 0x1680 ||
    (0x2000 ≤ n && n ≤ 0x200A) || n == 0x2028 || n == 0x2029 || n == 0x202F ||
    n == 0x205F || n == 0x3000

/-- Drops the last characters for as long as `p` holds of them. -/
def dropEndWhile (p : Char → Bool) : List Char → List Char
  | [] => []
  | c :: rest =>
    match dropEndWhile p rest with
    | [] => if p c then [] else [c]
    | kept => c :: kept

/-- Drops blank characters at both ends. -/
def trim (cs : List Char) : List Char := dropEndWhile isBlank (cs.dropWhile isBlank)

/-- The maximal non-empty runs of characters of which `p` does not hold. -/
def runsWithout (p : Char → Bool) : List Char → List (List Char)
  | [] => []
  | c :: rest =>
    if p c then runsWithout p rest
    else
      match rest with
      | [] => [[c]]
      | d :: _ =>
        if p d then [c] :: runsWithout p rest
        else
          match runsWithout p rest with
          | [] => [[c]]
          | run :: runs => (c :: run) :: runs

/-- The words of a text: its maximal runs without blank characters. -/
def words (cs : List Char) : List (List Char) := runsWithout isBlank cs

theorem trim_nil : trim [] = [] := rfl

example : words "  one\u00a0 two ".toList = ["one".toList, "two".toList] := by decide
example : trim "\u3000 a b\t".toList = "a b".toList := by decide

end ProductSpec.Text
