/-
  File trees as they come about: places are made of names, and whatever is there stands in a
  directory. Every operation on a path keeps them so.
-/
import ProductSpec.Proofs.File.Directory
import ProductSpec.Proofs.File.Effect
import ProductSpec.Proofs.File.Resolve

namespace ProductSpec

/-- A path as it comes from a text: there is at least one piece, and none has a slash in it. -/
structure FilePath.IsWritten (p : FilePath) : Prop where
  filled : p.pieces ≠ []
  noSlash : ∀ piece ∈ p.pieces, '/' ∉ piece.toList

namespace FileTree

variable {t : FileTree} {p q q' : FilePlace} {e : FileEntry} {name : String}

/-- The entries of a proper tree are called by names and stand in directories. -/
structure Proper (t : FileTree) : Prop where
  named : ∀ p, t.entriesAt p ≠ [] → ∀ name ∈ p, IsPieceName name
  standing : ∀ p name, t.entriesAt (p ++ [name]) ≠ [] → t.get? p = some .directory

namespace Proper

theorem empty : FileTree.empty.Proper where
  named _ found := absurd rfl found
  standing _ _ found := absurd rfl found

/-- Whatever is at a place stands in a directory, and the root is one. -/
theorem standing_dropLast (h : t.Proper) (found : t.get? p ≠ none) :
    t.get? p.dropLast = some .directory := by
  rcases List.eq_nil_or_concat p with rfl | ⟨before, last, rfl⟩
  · rfl
  · rw [List.concat_eq_append] at found ⊢
    rw [List.dropLast_concat]
    exact h.standing before last (mt (get?_eq_none (by simp)).2 found)

/-- Whatever has something below it is a directory. -/
theorem isDirectory_above (h : t.Proper) {rest : List String}
    (found : t.entriesAt (p ++ name :: rest) ≠ []) : t.get? p = some .directory := by
  induction rest generalizing p name with
  | nil => exact h.standing p name found
  | cons next rest ih =>
    have inner : t.get? (p ++ [name]) = some .directory := ih (by simpa using found)
    refine h.standing p name fun free => ?_
    rw [(get?_eq_none (by simp)).2 free] at inner
    cases inner

theorem below (h : t.Proper) (notDirectory : t.get? p ≠ some .directory) (name : String)
    (rest : List String) : t.entriesAt (p ++ name :: rest) = [] := by
  by_contra found
  exact notDirectory (h.isDirectory_above found)

theorem below_of_childless (h : t.Proper) (childless : t.children p = []) (name : String)
    (rest : List String) : t.entriesAt (p ++ name :: rest) = [] := by
  have free : t.entriesAt (p ++ [name]) = [] := by
    rw [List.eq_nil_iff_forall_not_mem]
    intro e mem
    have listed := mem_children.2 ⟨e, mem, rfl⟩
    rw [childless] at listed
    cases listed
  cases rest with
  | nil => exact free
  | cons next rest =>
    have nothing : t.get? (p ++ [name]) ≠ some .directory := by
      rw [(get?_eq_none (by simp)).2 free]
      nofun
    simpa using h.below nothing next rest

end Proper

/-- Trees agree about a place if they hold the same entries there. -/
theorem get?_congr {t' : FileTree} (same : t'.entriesAt p = t.entriesAt p) :
    t'.get? p = t.get? p := by
  by_cases root : p = []
  · rw [root]
    rfl
  · rw [get?_eq root, get?_eq root, same]

namespace Proper

theorem set (h : t.Proper) (notDirectory : t.get? q ≠ some .directory)
    (names : ∀ name ∈ q, IsPieceName name) (up : t.get? q.dropLast = some .directory) :
    (t.set q e).Proper where
  named p found := by
    rw [entriesAt_set] at found
    split at found
    · next same => exact same ▸ names
    · exact h.named p found
  standing p name found := by
    have directory : t.get? p = some .directory := by
      rw [entriesAt_set] at found
      split at found
      · next same => rwa [← same, List.dropLast_concat] at up
      · exact h.standing p name found
    have other : p ≠ q := fun same => notDirectory (same ▸ directory)
    exact (get?_congr (by rw [entriesAt_set, if_neg other])).trans directory

/-- A directory in which something new is put. -/
theorem add (h : t.Proper) (directory : t.get? p = some .directory)
    (free : t.get? (p ++ [name]) = none) (isName : IsPieceName name) :
    (t.set (p ++ [name]) e).Proper := by
  refine h.set (by rw [free]; nofun) ?_ (by rwa [List.dropLast_concat])
  refine List.forall_mem_append.2 ⟨fun other mem => ?_, List.forall_mem_singleton.2 isName⟩
  have filled : p ≠ [] := List.ne_nil_of_mem mem
  refine h.named p (fun free => ?_) other mem
  rw [get?_eq filled, free] at directory
  cases directory

theorem erase (h : t.Proper) (notDirectory : t.get? q ≠ some .directory) : (t.erase q).Proper where
  named p found := by
    rw [entriesAt_erase] at found
    split at found
    · cases found rfl
    · exact h.named p found
  standing p name found := by
    rw [entriesAt_erase] at found
    split at found
    · cases found rfl
    · have directory := h.standing p name found
      have other : p ≠ q := fun same => notDirectory (same ▸ directory)
      exact (get?_congr (by rw [entriesAt_erase, if_neg other])).trans directory

theorem eraseBelow (h : t.Proper) (q : FilePlace) : (t.eraseBelow q).Proper where
  named p found := by
    rw [entriesAt_eraseBelow] at found
    split at found
    · cases found rfl
    · exact h.named p found
  standing p name found := by
    rw [entriesAt_eraseBelow] at found
    split at found
    · cases found rfl
    · next apart =>
      have outside : ¬ q <+: p := fun inside => apart (inside.trans (List.prefix_append _ _))
      exact (get?_congr (by rw [entriesAt_eraseBelow, if_neg outside])).trans
        (h.standing p name found)

/-- Nothing is below a place to which something may move. -/
theorem below_of_checkTarget (h : t.Proper) (checked : t.checkTarget e q = .ok ()) (name : String)
    (rest : List String) : t.entriesAt (q ++ name :: rest) = [] := by
  by_cases directory : t.get? q = some .directory
  · unfold checkTarget at checked
    rw [directory] at checked
    cases e with
    | file => cases checked
    | directory =>
      refine h.below_of_childless ?_ name rest
      by_contra filled
      dsimp only at checked
      rw [if_neg (by simpa using filled)] at checked
      cases checked
  · exact h.below directory name rest

/-- After a rename everything from the old place is at the new one. -/
theorem entriesAt_rename_target (h : t.Proper) (apart : ¬ q <+: q')
    (checked : t.checkTarget e q' = .ok ()) (rest : List String) :
    ((t.erase q').move q q').entriesAt (q' ++ rest) = t.entriesAt (q ++ rest) := by
  have free (rest : List String) : (t.erase q').entriesAt (q' ++ rest) = [] := by
    rw [entriesAt_erase]
    split
    · rfl
    · next unlike =>
      obtain ⟨name, rest, rfl⟩ := List.exists_cons_of_ne_nil
        fun empty : rest = [] => unlike (by rw [empty, List.append_nil])
      exact h.below_of_checkTarget checked name rest
  have elsewhere : q ++ rest ≠ q' := fun same => apart (same ▸ List.prefix_append _ _)
  rw [entriesAt_move_target free, entriesAt_erase, if_neg elsewhere]

end Proper

theorem entriesAt_rename_other (apart : ¬ q' <+: p) :
    ((t.erase q').move q q').entriesAt p = if q <+: p then [] else t.entriesAt p := by
  have elsewhere : p ≠ q' := fun same => apart (same ▸ List.prefix_rfl)
  rw [entriesAt_move_other apart, entriesAt_erase, if_neg elsewhere]

theorem Proper.rename (h : t.Proper) (apart : ¬ q <+: q')
    (checked : t.checkTarget e q' = .ok ()) (names : ∀ name ∈ q', IsPieceName name)
    (up : t.get? q'.dropLast = some .directory) : ((t.erase q').move q q').Proper := by
  have filled : q ≠ [] := by
    rintro rfl
    exact apart List.nil_prefix
  have inside := h.entriesAt_rename_target apart checked
  -- A directory outside both places is still there.
  have kept {p} (directory : t.get? p = some .directory) (outside : ¬ q <+: p)
      (outside' : ¬ q' <+: p) : ((t.erase q').move q q').get? p = some .directory :=
    (get?_congr (by rw [entriesAt_rename_other outside', if_neg outside])).trans directory
  refine ⟨fun p isThere => ?_, fun p name isThere => ?_⟩
  · by_cases below : q' <+: p
    · obtain ⟨rest, rfl⟩ := below
      rw [inside] at isThere
      exact List.forall_mem_append.2
        ⟨names, fun name mem => h.named _ isThere name (List.mem_append_right _ mem)⟩
    · rw [entriesAt_rename_other below] at isThere
      split at isThere
      · cases isThere rfl
      · exact h.named p isThere
  · by_cases below : q' <+: p ++ [name]
    · rcases (List.prefix_concat_iff).1 below with same | ⟨rest, rfl⟩
      · rw [same, List.dropLast_concat] at up
        refine kept up (fun within => apart ?_) fun within => ?_
        · exact same ▸ within.trans (List.prefix_append _ _)
        · rw [same] at within
          exact absurd within.length_le (by simp)
      · rw [List.append_assoc, inside, ← List.append_assoc] at isThere
        have directory := h.standing _ name isThere
        rw [get?_eq (List.append_ne_nil_of_left_ne_nil filled _)] at directory
        by_cases root : q' ++ rest = []
        · rw [root]
          rfl
        · rw [get?_eq root, inside, directory]
    · rw [entriesAt_rename_other below] at isThere
      split at isThere
      · cases isThere rfl
      · next outside =>
        exact kept (h.standing p name isThere)
          (fun within => outside (within.trans (List.prefix_append _ _)))
          fun within => below (within.trans (List.prefix_append _ _))

/-- The place of a path that can be looked up stands in a directory. -/
theorem Proper.walk_standing (h : t.Proper) {here : FilePlace} {xs : List String}
    (way : t.walk here xs = .ok q) (up : t.get? here.dropLast = some .directory) :
    t.get? q.dropLast = some .directory := by
  induction xs generalizing here with
  | nil =>
    cases way
    exact up
  | cons piece rest ih =>
    rcases walk_cons_cases way with ⟨entry, onward⟩ | ⟨-, -, -, rfl⟩
    · refine ih onward ?_
      -- A step goes nowhere, back or on.
      unfold follow
      split
      · exact up
      · split
        · exact h.standing_dropLast (by rw [up]; exact Option.some_ne_none _)
        · rwa [List.dropLast_concat]
    · exact up

/-- The names on the way of a path are those of where it begins and those of its pieces. -/
theorem named_followAll {here : FilePlace} {xs : List String}
    (start : ∀ name ∈ here, IsPieceName name)
    (pieces : ∀ piece ∈ xs, '/' ∉ piece.toList ∧ '\x00' ∉ piece.toList) :
    ∀ name ∈ followAll here xs, IsPieceName name := by
  induction xs generalizing here with
  | nil => exact start
  | cons piece rest ih =>
    obtain ⟨first, others⟩ := List.forall_mem_cons.1 pieces
    refine ih ?_ others
    unfold follow
    split
    · exact start
    · next filled =>
      split
      · exact fun name mem => start name (List.dropLast_subset _ mem)
      · next notBack =>
        rw [not_or] at filled
        exact List.forall_mem_append.2 ⟨start, List.forall_mem_singleton.2
          ⟨first.1, first.2, filled.1, filled.2, notBack⟩⟩

end FileTree

namespace FileRequest

/-- The paths where an operation puts something. -/
def targets : FileRequest → List FilePath
  | .createDirectory p | .createFile p | .write p _ | .append p _ | .copy _ p | .rename _ p => [p]
  | _ => []

end FileRequest

namespace World

open FileTree

variable {w : World} {p : FilePath} {q : FilePlace}

/-- A proper world has a proper tree and is seen from a place made of names. -/
structure Proper (w : World) : Prop where
  tree : w.tree.Proper
  named : ∀ name ∈ w.directory, IsPieceName name

namespace Proper

theorem named_startOf (h : w.Proper) (p : FilePath) :
    ∀ name ∈ startOf w.directory p, IsPieceName name := by
  unfold startOf
  split
  · exact nofun
  · exact h.named

theorem named_place (h : w.Proper) (written : p.IsWritten) (placed : w.Places p q) :
    ∀ name ∈ q, IsPieceName name := by
  rw [place_eq_resolve placed]
  exact named_followAll (h.named_startOf p) fun piece mem =>
    ⟨written.noSlash piece mem, (place_eq_ok.1 placed).2.1 piece mem⟩

theorem standing_place (h : w.Proper) (written : p.IsWritten) (placed : w.Places p q) :
    w.tree.get? q.dropLast = some .directory := by
  obtain ⟨notEmpty, -, way⟩ := place_eq_ok.1 placed
  refine h.tree.walk_standing way ?_
  unfold startOf at way ⊢
  split
  · rfl
  · next relative =>
    rw [if_neg relative] at way
    obtain ⟨piece, rest, form⟩ := List.exists_cons_of_ne_nil written.filled
    rw [form] at way
    refine h.tree.standing_dropLast fun nothing => ?_
    -- Only the empty path could be looked up from a directory that is not there.
    rcases walk_cons_cases way with ⟨directory, -⟩ | ⟨-, rfl, rfl, -⟩
    · cases directory.symm.trans nothing
    · rw [FilePath.isEmpty, form] at notEmpty
      cases notEmpty

end Proper

/-- What an operation makes of a proper tree is proper. -/
theorem Proper.effect (h : w.Proper) {r : FileRequest} {tree : FileTree} (effect : w.Effect r tree)
    (written : ∀ p ∈ r.targets, p.IsWritten) : tree.Proper := by
  have target {p q} (isTarget : p ∈ r.targets) (placed : w.Places p q) :
      (∀ name ∈ q, IsPieceName name) ∧ w.tree.get? q.dropLast = some .directory :=
    ⟨h.named_place (written p isTarget) placed, h.standing_place (written p isTarget) placed⟩
  cases effect with
  | look | stay => exact h.tree
  | createDirectory placed free | createFile placed free =>
    obtain ⟨names, up⟩ := target List.mem_cons_self placed
    exact h.tree.set (by rw [free]; nofun) names up
  | write placed notDirectory | append placed notDirectory | copy _ placed _ notDirectory =>
    obtain ⟨names, up⟩ := target List.mem_cons_self placed
    exact h.tree.set notDirectory names up
  | rename _ placed found apart checked =>
    obtain ⟨names, up⟩ := target List.mem_cons_self placed
    exact h.tree.rename apart checked names up
  | removeFile placed found => exact h.tree.erase (by rw [found]; nofun)
  | removeTree => exact h.tree.eraseBelow _

end World

end ProductSpec
