/-
  Edit scripts between two texts, as lists of lines. A script is found by divide and conquer:
  lines that both texts begin or end with are kept, and the rest is cut where the shortest paths
  from both ends meet.
-/

namespace ProductSpec.LineDiff

/-- A step of a script, with the lines it is about. -/
inductive Edit
  | keep (lines : List String)
  | delete (lines : List String)
  | insert (lines : List String)
deriving DecidableEq, Repr, Inhabited

namespace Edit

def lines : Edit → List String
  | keep ls | delete ls | insert ls => ls

def isDelete : Edit → Bool
  | delete _ => true
  | _ => false

def isInsert : Edit → Bool
  | insert _ => true
  | _ => false

/-- The lines of the first text. -/
def old : Edit → List String
  | keep ls | delete ls => ls
  | insert _ => []

/-- The lines of the second text. -/
def new : Edit → List String
  | keep ls | insert ls => ls
  | delete _ => []

end Edit

/-- The number of lines that both lists begin with. -/
def commonPrefix : List String → List String → Nat
  | a :: as, b :: bs => if a = b then commonPrefix as bs + 1 else 0
  | _, _ => 0

/-- The number of lines that both lists end with. -/
def commonSuffix (as bs : List String) : Nat := commonPrefix as.reverse bs.reverse

/-- How far the paths of some cost have come, diagonal by diagonal. -/
structure Frontier where
  offset : Nat
  reach : Array Nat

namespace Frontier

def blank (bound : Nat) : Frontier := ⟨bound + 1, .replicate (2 * bound + 3) 0⟩

def get (f : Frontier) (k : Int) : Nat := f.reach.getD (k + f.offset).toNat 0

def set (f : Frontier) (k : Int) (x : Nat) : Frontier :=
  { f with reach := f.reach.setIfInBounds (k + f.offset).toNat x }

/-- Where the best path of the next cost enters a diagonal. -/
def enter (f : Frontier) (cost k : Int) : Nat :=
  if k = -cost ∨ (k ≠ cost ∧ f.get (k - 1) < f.get (k + 1)) then f.get (k + 1)
  else f.get (k - 1) + 1

end Frontier

/-- The number of equal lines from two positions on. -/
def runLength (old new : Array String) (x y : Nat) : Nat :=
  if h : x < old.size ∧ y < new.size then
    if old[x] = new[y] then runLength old new (x + 1) (y + 1) + 1 else 0
  else 0
termination_by old.size - x

/-- The diagonals of the paths of one cost, from the greatest down. -/
def diagonals (cost : Nat) : List Int :=
  (List.range (cost + 1)).map fun (i : Nat) => (cost : Int) - 2 * i

/-- Two texts that are searched from both ends. -/
structure Search where
  old : Array String
  new : Array String
  oldBack : Array String
  newBack : Array String

namespace Search

def ofLists (old new : List String) : Search :=
  ⟨old.toArray, new.toArray, old.toArray.reverse, new.toArray.reverse⟩

/-- The difference of the lengths. -/
def delta (s : Search) : Int := (s.old.size : Int) - s.new.size

/-- How many steps either side needs at most. -/
def bound (s : Search) : Nat := (s.old.size + s.new.size + 1) / 2 + 1

/-- The paths from the front grow by one step. The answer is an error if one meets a path from
the back: the place where its last run of equal lines begins. -/
def forward (s : Search) (cost : Nat) (front back : Frontier) :
    Except (Nat × Nat) Frontier :=
  (diagonals cost).foldlM (fun front k => do
    let x := front.enter cost k
    let y := (x - k).toNat
    let front := front.set k (x + runLength s.old s.new x y)
    if s.delta % 2 ≠ 0 ∧ (k - s.delta).natAbs + 1 ≤ cost ∧
        s.old.size ≤ front.get k + back.get (s.delta - k) then
      throw (x, y)
    return front) front

/-- The paths from the back grow by one step. The answer is an error if one meets a path from
the front: the place, seen from the front, where its last run of equal lines begins. -/
def backward (s : Search) (cost : Nat) (front back : Frontier) :
    Except (Nat × Nat) Frontier :=
  (diagonals cost).foldlM (fun back k => do
    let x := back.enter cost k
    let y := (x - k).toNat
    let run := runLength s.oldBack s.newBack x y
    let back := back.set k (x + run)
    if s.delta % 2 = 0 ∧ (k - s.delta).natAbs ≤ cost ∧
        s.old.size ≤ back.get k + front.get (s.delta - k) then
      throw (s.old.size - (x + run), s.new.size - (y + run))
    return back) back

def meetFrom (s : Search) (front back : Frontier) : List Nat → Option (Nat × Nat)
  | [] => none
  | cost :: costs =>
    match s.forward cost front back with
    | .error place => some place
    | .ok front =>
      match s.backward cost front back with
      | .error place => some place
      | .ok back => s.meetFrom front back costs

/-- Where the shortest paths from both ends meet. -/
def meet? (s : Search) : Option (Nat × Nat) :=
  s.meetFrom (.blank s.bound) (.blank s.bound) (List.range s.bound)

end Search

/-- A step for lines that are kept, unless there are none. -/
def kept (lines : List String) : List Edit := if lines.isEmpty then [] else [.keep lines]

/-- A script from one text to another. A cut at a corner would not make the texts smaller. -/
def script (old new : List String) : List Edit :=
  let start := commonPrefix old new
  let oldRest := old.drop start
  let newRest := new.drop start
  let common := commonSuffix oldRest newRest
  let a := oldRest.take (oldRest.length - common)
  let b := newRest.take (newRest.length - common)
  let changes :=
    if _ha : a = [] then (if b = [] then [] else [.insert b])
    else if _hb : b = [] then [.delete a]
    else
      match (Search.ofLists a b).meet? with
      | some (x, y) =>
        if _h : 0 < x + y ∧ x + y < a.length + b.length then
          script (a.take x) (b.take y) ++ script (a.drop x) (b.drop y)
        else [.delete a, .insert b]
      | none => [.delete a, .insert b]
  kept (old.take start) ++ changes ++ kept (oldRest.drop (oldRest.length - common))
termination_by old.length + new.length
decreasing_by
  all_goals
    have ha' := List.length_pos_iff.2 _ha
    have hb' := List.length_pos_iff.2 _hb
    have la : a.length ≤ old.length := by simp [a, oldRest]; omega
    have lb : b.length ≤ new.length := by simp [b, newRest]; omega
    simp only [List.length_take, List.length_drop]
    omega

end ProductSpec.LineDiff
