/-
  Making a script easier to read. Each deletion and each insertion moves up as far as the lines
  around it allow, joins its like, and moves down again; the texts stay the same.
-/
import ProductSpec.LineDiff.Script

namespace ProductSpec.LineDiff

/-- A script seen from one of its steps. The steps before it come nearest first. -/
structure Place where
  before : List Edit
  here : Edit
  after : List Edit
deriving Repr, Inhabited

/-- A measure of the steps on one side. -/
def weight (edits : List Edit) : Nat :=
  edits.foldr (fun e n => e.lines.length + 1 + n) 0

/-- Puts kept lines in front of steps. -/
def keepBefore (lines : List String) : List Edit → List Edit
  | .keep more :: rest => .keep (lines ++ more) :: rest
  | rest => .keep lines :: rest

/-- Puts kept lines behind steps that are listed nearest first. -/
def keepAfter (lines : List String) : List Edit → List Edit
  | .keep more :: rest => .keep (more ++ lines) :: rest
  | rest => .keep lines :: rest

theorem length_take_commonPrefix (as bs : List String) :
    commonPrefix as bs ≤ as.length ∧ commonPrefix as bs ≤ bs.length := by
  fun_induction commonPrefix as bs <;> simp
  omega

theorem commonSuffix_le (as bs : List String) : commonSuffix as bs ≤ as.length := by
  simpa [commonSuffix] using (length_take_commonPrefix as.reverse bs.reverse).1

/-- Moves a step up. Inserted lines may change places with equal kept lines above them. -/
def moveUp (before : List Edit) (here : Edit) (after : List Edit) : Place :=
  match before, here with
  | .keep ls :: rest, .insert xs =>
    let n := commonSuffix ls xs
    if _h : 0 < n then
      let moved := ls.drop (ls.length - n)
      moveUp (kept (ls.take (ls.length - n)) ++ rest)
        (.insert (moved ++ xs.take (xs.length - n))) (keepBefore moved after)
    else if ls = [] then moveUp rest here after
    else ⟨before, here, after⟩
  | .keep ls :: rest, .delete _ => if ls = [] then moveUp rest here after else ⟨before, here, after⟩
  | .insert ys :: rest, .insert xs => moveUp rest (.insert (ys ++ xs)) after
  | .delete ys :: rest, .delete xs => moveUp rest (.delete (ys ++ xs)) after
  | .insert ys :: rest, .delete xs => moveUp rest (.delete xs) (.insert ys :: after)
  | .delete ys :: rest, .insert xs => moveUp rest (.insert xs) (.delete ys :: after)
  | _, _ => ⟨before, here, after⟩
termination_by weight before
decreasing_by
  · have := commonSuffix_le ls xs
    unfold kept
    split <;> simp [weight, Edit.lines, n] at *
    omega
  all_goals simp [weight, Edit.lines]

/-- Moves a step down. Inserted lines may change places with equal kept lines below them. -/
def moveDown (before : List Edit) (here : Edit) (after : List Edit) : Place :=
  match after, here with
  | .keep ls :: rest, .insert xs =>
    let n := commonPrefix ls xs
    if _h : 0 < n then
      moveDown (keepAfter (xs.take n) before) (.insert (xs.drop n ++ ls.take n))
        (kept (ls.drop n) ++ rest)
    else if ls = [] then moveDown before here rest
    else ⟨before, here, after⟩
  | .keep ls :: rest, .delete _ =>
    if ls = [] then moveDown before here rest else ⟨before, here, after⟩
  | .insert ys :: rest, .insert xs => moveDown before (.insert (xs ++ ys)) rest
  | .delete ys :: rest, .delete xs => moveDown before (.delete (xs ++ ys)) rest
  | .insert ys :: rest, .delete xs => moveDown (.insert ys :: before) (.delete xs) rest
  | .delete ys :: rest, .insert xs => moveDown (.delete ys :: before) (.insert xs) rest
  | _, _ => ⟨before, here, after⟩
termination_by weight after
decreasing_by
  · have := (length_take_commonPrefix ls xs).1
    unfold kept
    split <;> simp [weight, Edit.lines, n] at *
    omega
  all_goals simp [weight, Edit.lines]

/-- Moves the steps of one kind in turn, at most as many as the fuel says. -/
def settleKind (isKind : Edit → Bool) (before : List Edit) : Nat → List Edit → List Edit
  | _, [] => before.reverse
  | 0, after => before.reverse ++ after
  | fuel + 1, e :: after =>
    if isKind e then
      let up := moveUp before e after
      let p := moveDown up.before up.here up.after
      settleKind isKind (p.here :: p.before) fuel p.after
    else settleKind isKind (e :: before) fuel after

/-- Deletions settle first, then insertions. A step is moved more than once only after two steps
have become one, so there are fewer moves than the square of the weight. -/
def compact (edits : List Edit) : List Edit :=
  let fuel := (weight edits + 1) * (weight edits + 1)
  settleKind Edit.isInsert [] fuel (settleKind Edit.isDelete [] fuel edits)

end ProductSpec.LineDiff
