/-
  The places that paths name: a name joined to the path of a directory leads to the entry of that
  name in it, and what is below a directory does not matter for the way to it.
-/
import ProductSpec.Proofs.File.Tree
import ProductSpec.Proofs.Text.Cut
import Mathlib.Tactic.SplitIfs

namespace ProductSpec

/-- A text that is the name of an entry wherever it stands in a path. -/
structure IsPieceName (name : String) : Prop where
  noSlash : '/' ∉ name.toList
  noZero : '\x00' ∉ name.toList
  filled : name ≠ ""
  notHere : name ≠ "."
  notBack : name ≠ ".."

namespace FilePath

theorem ofText_of_noSlash {name : String} (h : '/' ∉ name.toList) : ofText name = ⟨[name]⟩ := by
  rw [ofText, Text.split_eq_splitOn, List.splitOn_eq_singleton h]
  simp

theorem pieces_ofText_ne_nil (s : String) : (ofText s).pieces ≠ [] := by
  rw [ofText, Text.split_eq_splitOn]
  simp [List.splitOn_ne_nil]

theorem join_of_isEmpty {directory : FilePath} (empty : directory.isEmpty = true) (s : String) :
    directory.join s = ofText s := by
  rw [join, empty, Bool.or_true, if_pos rfl]

/-- The pieces before the last one of a joined path: those of the directory without the empty
piece at its end. -/
theorem join_eq {directory : FilePath} {name : String} (notEmpty : directory.isEmpty = false)
    (h : IsPieceName name) :
    directory.join name = ⟨directory.pieces ++ [name]⟩ ∨
      ∃ before, directory.pieces = before ++ [""] ∧ directory.join name = ⟨before ++ [name]⟩ := by
  have relative : (⟨[name]⟩ : FilePath).isAbsolute = false := by
    simp [isAbsolute]
  rw [ofText_of_noSlash h.noSlash, join, relative, notEmpty]
  simp only [Bool.or_self, Bool.false_eq_true, if_false]
  split
  · next last =>
    obtain ⟨before, form⟩ := List.getLast?_eq_some_iff.1 last
    exact .inr ⟨before, form, by rw [form, List.dropLast_concat]⟩
  · exact .inl rfl

/-- The pieces of a joined path are those of the directory and the name. A slash at the end of the
path is replaced by the one before the name. -/
theorem pieces_join {directory : FilePath} {name : String} (notEmpty : directory.isEmpty = false)
    (h : IsPieceName name) : ∃ before, (directory.join name).pieces = before ++ [name] ∧
      (directory.pieces = before ∨ directory.pieces = before ++ [""]) := by
  rcases join_eq notEmpty h with form | ⟨before, trailing, form⟩
  · exact ⟨directory.pieces, by rw [form], .inl rfl⟩
  · exact ⟨before, by rw [form], .inr trailing⟩

/-- What is named in a directory has no slash behind its name. -/
theorem endsInSlash_join (directory : FilePath) {name : String} (h : IsPieceName name) :
    (directory.join name).endsInSlash = false := by
  have last : ∃ before, (directory.join name).pieces = before ++ [name] := by
    cases empty : directory.isEmpty with
    | true =>
      refine ⟨[], ?_⟩
      rw [join_of_isEmpty empty, ofText_of_noSlash h.noSlash]
      rfl
    | false =>
      rcases join_eq empty h with form | ⟨before, -, form⟩
      · exact ⟨_, by rw [form]⟩
      · exact ⟨_, by rw [form]⟩
  obtain ⟨before, form⟩ := last
  rw [endsInSlash, form, List.getLast?_concat]
  simpa using h.filled

theorem pieces_join_ne_nil {directory : FilePath} {name : String}
    (notEmpty : directory.isEmpty = false) (h : IsPieceName name) :
    (directory.join name).pieces ≠ [] := by
  rcases join_eq notEmpty h with form | ⟨before, -, form⟩ <;> simp [form]

theorem isAbsolute_cons_cons (first second : String) (rest : List String) :
    (⟨first :: second :: rest⟩ : FilePath).isAbsolute = decide (first = "") := by
  by_cases empty : first = ""
  · rw [empty]
    rfl
  · simp [isAbsolute, empty]

theorem isAbsolute_join {p q : FilePath} {before : List String} {name : String}
    (form : q.pieces = before ++ [name])
    (same : p.pieces = before ∨ p.pieces = before ++ [""]) (notEmpty : p.isEmpty = false) :
    q.isAbsolute = p.isAbsolute := by
  obtain ⟨pieces⟩ := p
  obtain ⟨pieces'⟩ := q
  change pieces' = before ++ [name] at form
  rw [form]
  cases before with
  | nil =>
    rcases same with rfl | rfl
    · simp [isAbsolute]
    · cases notEmpty
  | cons first rest =>
    rcases same with rfl | rfl
    · cases rest with
      | nil =>
        have filled : first ≠ "" := by simpa [isEmpty] using notEmpty
        rw [List.cons_append, List.nil_append, isAbsolute_cons_cons]
        simp [isAbsolute, filled]
      | cons second rest =>
        rw [List.cons_append, List.cons_append, isAbsolute_cons_cons, isAbsolute_cons_cons]
    · cases rest with
      | nil =>
        simp only [List.cons_append, List.nil_append, isAbsolute_cons_cons]
      | cons second rest =>
        simp only [List.cons_append, isAbsolute_cons_cons]

end FilePath

namespace FileTree

variable {t t' : FileTree} {here p : FilePlace} {xs ys : List String}

/-- Where a piece of a path leads from a directory. -/
def follow (here : FilePlace) (piece : String) : FilePlace :=
  if piece = "" ∨ piece = "." then here
  else if piece = ".." then here.dropLast
  else here ++ [piece]

theorem walk_cons {piece : String} (h : t.get? here = some .directory) :
    t.walk here (piece :: xs) = t.walk (follow here piece) xs := by
  rw [walk, h, follow]
  dsimp only
  split_ifs <;> rfl

/-- A way is followed from a directory. Only where nothing is it may end with an empty piece. -/
theorem walk_cons_cases {piece : String} (h : t.walk here (piece :: xs) = .ok p) :
    t.get? here = some .directory ∧ t.walk (follow here piece) xs = .ok p ∨
      t.get? here = none ∧ piece = "" ∧ xs = [] ∧ p = here := by
  cases entry : t.get? here with
  | none =>
    rw [walk, entry] at h
    dsimp only at h
    split at h
    · next last =>
      cases h
      exact .inr ⟨rfl, last.1, last.2, rfl⟩
    · cases h
  | some e =>
    cases e with
    | file =>
      rw [walk, entry] at h
      cases h
    | directory => exact .inl ⟨rfl, walk_cons entry ▸ h⟩

/-- Every piece of a way that ends in a directory is followed from a directory. -/
theorem walk_cons_eq_ok {piece : String} (h : t.walk here (piece :: xs) = .ok p)
    (directory : t.get? p = some .directory) :
    t.get? here = some .directory ∧ t.walk (follow here piece) xs = .ok p := by
  refine (walk_cons_cases h).resolve_right ?_
  rintro ⟨absent, -, -, rfl⟩
  cases directory.symm.trans absent

/-- A way that ends in a directory can be continued from there. -/
theorem walk_append (h : t.walk here xs = .ok p) (directory : t.get? p = some .directory) :
    t.walk here (xs ++ ys) = t.walk p ys := by
  induction xs generalizing here with
  | nil =>
    cases h
    rfl
  | cons piece rest ih =>
    obtain ⟨from', onward⟩ := walk_cons_eq_ok h directory
    rw [List.cons_append, walk_cons from', ih onward]

/-- The way to a directory does not lead through what is below it if nothing is there. -/
theorem walk_congr (same : ∀ q, (¬ ∃ rest, rest ≠ [] ∧ q = p ++ rest) → t'.get? q = t.get? q)
    (empty : ∀ rest, rest ≠ [] → t.get? (p ++ rest) = none) (h : t.walk here xs = .ok p)
    (directory : t.get? p = some .directory) : t'.walk here xs = .ok p := by
  induction xs generalizing here with
  | nil => exact h
  | cons piece rest ih =>
    obtain ⟨from', onward⟩ := walk_cons_eq_ok h directory
    -- The way passes through directories, and none of them is below the one it leads to.
    have outside : ¬ ∃ rest, rest ≠ [] ∧ here = p ++ rest := by
      rintro ⟨rest, filled, below⟩
      rw [below, empty rest filled] at from'
      cases from'
    rw [walk_cons ((same here outside).trans from'), ih onward]

/-- A slash at the end of the path of a directory changes nothing. -/
theorem walk_of_append_empty (h : t.walk here (xs ++ [""]) = .ok p)
    (directory : t.get? p = some .directory) : t.walk here xs = .ok p := by
  induction xs generalizing here with
  | nil => exact (walk_cons_eq_ok h directory).2
  | cons piece rest ih =>
    obtain ⟨from', onward⟩ := walk_cons_eq_ok h directory
    rw [walk_cons from', ih onward]

/-- Where the way along the pieces of a path begins. -/
def startOf (directory : FilePlace) (path : FilePath) : FilePlace :=
  if path.isAbsolute then [] else directory

theorem place_eq_ok {directory : FilePlace} {path : FilePath} :
    t.place directory path = .ok p ↔ path.isEmpty = false ∧
      (∀ piece ∈ path.pieces, '\x00' ∉ piece.toList) ∧
        t.walk (startOf directory path) path.pieces = .ok p := by
  unfold place startOf
  cases path.isEmpty with
  | true => simp
  | false =>
    by_cases zero : ∃ piece ∈ path.pieces, '\x00' ∈ piece.toList
    · have found : (path.pieces.any fun piece => '\x00' ∈ piece.toList) = true := by
        simpa using zero
      obtain ⟨piece, mem, zero⟩ := zero
      simp only [Bool.false_eq_true, if_false, found, if_true]
      exact ⟨nofun, fun h => absurd zero (h.2.1 piece mem)⟩
    · have none : ∀ piece ∈ path.pieces, '\x00' ∉ piece.toList := fun piece mem isIn =>
        zero ⟨piece, mem, isIn⟩
      have notFound : (path.pieces.any fun piece => '\x00' ∈ piece.toList) = false := by
        simpa using none
      simp only [Bool.false_eq_true, if_false, notFound, true_and]
      cases path.isAbsolute <;> exact ⟨fun h => ⟨none, h⟩, fun h => h.2⟩

/-- A name joined to the path of a directory leads into it. -/
theorem place_join {directory : FilePlace} {path : FilePath} {name : String}
    (h : t.place directory path = .ok p) (isDirectory : t.get? p = some .directory)
    (piece : IsPieceName name) : t.place directory (path.join name) = .ok (p ++ [name]) := by
  obtain ⟨notEmpty, noZero, way⟩ := place_eq_ok.1 h
  have last : t.walk p [name] = .ok (p ++ [name]) := by
    rw [walk_cons isDirectory, follow, if_neg (by simp [piece.filled, piece.notHere]),
      if_neg piece.notBack]
    rfl
  obtain ⟨before, form, same⟩ := FilePath.pieces_join notEmpty piece
  have start : startOf directory (path.join name) = startOf directory path := by
    rw [startOf, FilePath.isAbsolute_join form same notEmpty, startOf]
  have there : t.walk (startOf directory path) before = .ok p := by
    rcases same with same | same
    · rwa [same] at way
    · rw [same] at way
      exact walk_of_append_empty way isDirectory
  have known : ∀ piece ∈ before, '\x00' ∉ piece.toList := by
    intro piece mem
    rcases same with same | same
    · exact noZero piece (same ▸ mem)
    · exact noZero piece (same ▸ List.mem_append_left _ mem)
  refine place_eq_ok.2 ⟨?_, ?_, ?_⟩
  · rw [FilePath.isEmpty, form]
    cases before with
    | nil => simpa using piece.filled
    | cons first rest => cases rest <;> simp
  · rw [form]
    exact List.forall_mem_append.2 ⟨known, by simpa using piece.noZero⟩
  · rw [start, form, walk_append there isDirectory, last]

end FileTree

end ProductSpec
