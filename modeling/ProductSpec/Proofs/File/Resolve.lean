/-
  Where paths lead. As nothing in a tree points elsewhere, the place of a path that can be looked
  up depends on the path alone.
-/
import ProductSpec.Proofs.File.Place

namespace ProductSpec

namespace FilePath

theorem isAbsolute_iff {p : FilePath} :
    p.isAbsolute = true ↔ ∃ second rest, p.pieces = "" :: second :: rest := by
  obtain ⟨pieces⟩ := p
  unfold isAbsolute
  constructor
  · intro h
    split at h
    · next form => exact ⟨_, _, form⟩
    · cases h
  · rintro ⟨second, rest, rfl⟩
    rfl

/-- A relative path that is joined to another one begins where that one does. -/
theorem isAbsolute_join_ofText {d : FilePath} {s : String}
    (relative : (ofText s).isAbsolute = false) (notEmpty : d.isEmpty = false) :
    (d.join s).isAbsolute = d.isAbsolute := by
  obtain ⟨pieces⟩ := d
  obtain ⟨first, rest, form⟩ := List.exists_cons_of_ne_nil (pieces_ofText_ne_nil s)
  unfold join
  rw [relative, notEmpty]
  simp only [Bool.or_self, Bool.false_eq_true, if_false]
  rw [Bool.eq_iff_iff, isAbsolute_iff, isAbsolute_iff]
  match pieces with
  | [] =>
    -- Joined to nothing a path stays relative.
    have still : ¬ ∃ second rest, (ofText s).pieces = "" :: second :: rest := by
      rw [← isAbsolute_iff, relative]
      exact Bool.false_ne_true
    simpa using still
  | [one] =>
    have filled : one ≠ "" := by simpa [isEmpty] using notEmpty
    simp [filled]
  | [one, two] =>
    by_cases slash : two = ""
    · simp [slash, form]
    · simp [slash]
  | one :: two :: three :: more =>
    split <;> simp [List.dropLast]

end FilePath

namespace FileTree

variable {t : FileTree} {here p directory : FilePlace} {xs ys : List String}

/-- Where the pieces of a path lead from a directory, one after the other. -/
def followAll (here : FilePlace) (pieces : List String) : FilePlace := pieces.foldl follow here

theorem followAll_append : followAll here (xs ++ ys) = followAll (followAll here xs) ys :=
  List.foldl_append

/-- The place of a path, whatever is there. -/
def resolve (directory : FilePlace) (path : FilePath) : FilePlace :=
  followAll (startOf directory path) path.pieces

theorem walk_eq_followAll (h : t.walk here xs = .ok p) : p = followAll here xs := by
  induction xs generalizing here with
  | nil =>
    cases h
    rfl
  | cons piece rest ih =>
    rcases walk_cons_cases h with ⟨-, onward⟩ | ⟨-, rfl, rfl, rfl⟩
    · exact ih onward
    · rfl

theorem place_eq_resolve {path : FilePath} (h : t.place directory path = .ok p) :
    p = resolve directory path :=
  walk_eq_followAll (place_eq_ok.1 h).2.2

theorem follow_empty : follow here "" = here := if_pos (.inl rfl)

/-- A path joined to another one leads on from where that one leads. -/
theorem resolve_join {d : FilePath} {s : String}
    (relative : (FilePath.ofText s).isAbsolute = false) :
    resolve directory (d.join s) =
      followAll (resolve directory d) (FilePath.ofText s).pieces := by
  cases empty : d.isEmpty with
  | true =>
    -- The empty path is the directory from which paths are seen.
    have pieces : d.pieces = [""] := beq_iff_eq.1 empty
    have absent : d.isAbsolute = false := by
      rw [FilePath.isAbsolute, pieces]
      rfl
    unfold resolve startOf
    rw [FilePath.join_of_isEmpty empty, relative, absent, pieces]
    rfl
  | false =>
    have start : startOf directory (d.join s) = startOf directory d := by
      rw [startOf, FilePath.isAbsolute_join_ofText relative empty, startOf]
    unfold resolve
    rw [start, FilePath.join, relative, empty]
    simp only [Bool.or_self, Bool.false_eq_true, if_false]
    split
    · next last =>
      obtain ⟨before, form⟩ := List.getLast?_eq_some_iff.1 last
      rw [form, List.dropLast_concat, followAll_append, followAll_append]
      rfl
    · exact followAll_append

theorem follow_name {name : String} (h : IsPieceName name) : follow here name = here ++ [name] := by
  rw [follow, if_neg (by simp [h.filled, h.notHere]), if_neg h.notBack]

theorem isAbsolute_ofText_name {name : String} (h : IsPieceName name) :
    (FilePath.ofText name).isAbsolute = false := by
  rw [FilePath.ofText_of_noSlash h.noSlash]
  simp [FilePath.isAbsolute]

/-- A name joined to a path leads to the entry of that name. -/
theorem resolve_child {d : FilePath} {name : String} (h : IsPieceName name) :
    resolve directory (d.join name) = resolve directory d ++ [name] := by
  rw [resolve_join (isAbsolute_ofText_name h), FilePath.ofText_of_noSlash h.noSlash]
  exact follow_name h

/-- Without steps back a path leads to a place below. -/
theorem followAll_below (noBack : ".." ∉ xs) : here <+: followAll here xs := by
  induction xs generalizing here with
  | nil => exact List.prefix_rfl
  | cons piece rest ih =>
    rw [List.mem_cons, not_or] at noBack
    have step : here <+: follow here piece := by
      unfold follow
      split
      · exact List.prefix_rfl
      · rw [if_neg (Ne.symm noBack.1)]
        exact List.prefix_append _ _
    exact step.trans (ih noBack.2)

end FileTree

end ProductSpec
