/-
  Unified diffs: the changed lines of two texts with three lines of context around them.
-/
import ProductSpec.LineDiff.Compaction
import ProductSpec.Text.Split

namespace ProductSpec.LineDiff

/-- A run of lines that are equal, or of lines that replace others. -/
inductive Block
  | same (lines : List String)
  | changed (old new : List String)
deriving Repr, Inhabited

/-- The blocks of a script: steps of one sort in a row are one block. -/
def blocks : List Edit → List Block
  | [] => []
  | e :: rest =>
    match e, blocks rest with
    | .keep ls, .same more :: others => .same (ls ++ more) :: others
    | .keep ls, others => .same ls :: others
    | .delete ls, .changed old new :: others => .changed (ls ++ old) new :: others
    | .delete ls, others => .changed ls [] :: others
    | .insert ls, .changed old new :: others => .changed old (ls ++ new) :: others
    | .insert ls, others => .changed [] ls :: others

/-- The number of kept lines that are shown on each side of a change. -/
def context : Nat := 3

/-- A part of the diff. It begins behind some lines of both texts. -/
structure Hunk where
  oldStart : Nat
  newStart : Nat
  blocks : List Block
deriving Repr, Inhabited

namespace Block

def oldLength : Block → Nat
  | same ls => ls.length
  | changed old _ => old.length

def newLength : Block → Nat
  | same ls => ls.length
  | changed _ new => new.length

end Block

/-- The hunks of blocks that follow an open hunk. A long run of equal lines closes the hunk and
opens the next one. -/
def closeHunks (h : Hunk) (oldPos newPos : Nat) : List Block → List Hunk
  | [] => [h]
  | [.same ls] => [{ h with blocks := h.blocks ++ [.same (ls.take context)] }]
  | .same ls :: rest =>
    let oldNext := oldPos + ls.length
    let newNext := newPos + ls.length
    if 2 * context < ls.length then
      { h with blocks := h.blocks ++ [.same (ls.take context)] } ::
        closeHunks ⟨oldNext - context, newNext - context, [.same (ls.drop (ls.length - context))]⟩
          oldNext newNext rest
    else closeHunks { h with blocks := h.blocks ++ [.same ls] } oldNext newNext rest
  | .changed old new :: rest =>
    closeHunks { h with blocks := h.blocks ++ [.changed old new] } (oldPos + old.length)
      (newPos + new.length) rest

/-- The hunks of a diff. Equal texts have none. -/
def hunks : List Block → List Hunk
  | [] | [.same _] => []
  | .same ls :: rest =>
    let start := ls.length - context
    closeHunks ⟨start, start, [.same (ls.drop start)]⟩ ls.length ls.length rest
  | bs => closeHunks ⟨0, 0, []⟩ 0 0 bs

/-- A range of lines by the number of its first line and its length. One line needs no length,
and an empty range stands behind the line of its number. -/
def rangeText (start length : Nat) : String :=
  if length = 1 then toString (start + 1)
  else toString (if length = 0 then start else start + 1) ++ "," ++ toString length

/-- A line with its mark in front. Only the last line of a text may have no line break. -/
def markedLine (mark line : String) : String :=
  mark ++ line ++
    if line.toList.getLast? = some '\n' then "" else "\n\\ No newline at end of file\n"

namespace Block

def text : Block → String
  | same ls => String.join (ls.map (markedLine " "))
  | changed old new =>
    String.join (old.map (markedLine "-")) ++ String.join (new.map (markedLine "+"))

end Block

def Hunk.oldLength (h : Hunk) : Nat := h.blocks.foldl (fun n b => n + b.oldLength) 0

def Hunk.newLength (h : Hunk) : Nat := h.blocks.foldl (fun n b => n + b.newLength) 0

def Hunk.text (h : Hunk) : String :=
  "@@ -" ++ rangeText h.oldStart h.oldLength ++ " +" ++ rangeText h.newStart h.newLength ++
    " @@\n" ++
    String.join (h.blocks.map Block.text)

/-- The lines of a text, each with its line break. -/
def linesOf (text : String) : List String :=
  let pieces := (Text.split '\n' text.toList).map String.ofList
  pieces.dropLast.map (· ++ "\n") ++ (pieces.drop (pieces.length - 1)).filter (· ≠ "")

/-- The diff of two texts under their names. -/
def unified (oldName newName oldText newText : String) : String :=
  match hunks (blocks (compact (script (linesOf oldText) (linesOf newText)))) with
  | [] => ""
  | hs => "--- " ++ oldName ++ "\n+++ " ++ newName ++ "\n" ++ String.join (hs.map Hunk.text)

end ProductSpec.LineDiff
