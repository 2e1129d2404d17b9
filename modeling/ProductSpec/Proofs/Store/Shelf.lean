/-
  What a store's directory holds: files, and directories of files, by name. Each operation on the
  store's files changes this as it changes the file tree.
-/
import ProductSpec.Proofs.File.Action
import ProductSpec.Proofs.File.Place
import ProductSpec.Store.Basic
import Mathlib.Logic.Function.Basic

namespace ProductSpec

/-- An entry without the time of its last change. -/
inductive FileShape
  | directory
  | file (content : ByteArray)

namespace FileShape

def kind : FileShape → FileKind
  | directory => .directory
  | file _ => .file

end FileShape

namespace FileEntry

def shape : FileEntry → FileShape
  | directory => .directory
  | file content _ => .file content

theorem kind_shape (e : FileEntry) : e.shape.kind = e.kind := by cases e <;> rfl

end FileEntry

/-- What a directory holds under one name. -/
inductive Item
  | file (content : ByteArray)
  | folder (files : String → Option ByteArray)

namespace Item

def shapeAt : Item → List String → Option FileShape
  | file content, [] => some (.file content)
  | folder _, [] => some .directory
  | folder files, [name] => (files name).map .file
  | _, _ => none

end Item

/-- What a directory holds, by name. -/
abbrev Shelf := String → Option Item

namespace Shelf

def shapeAt (s : Shelf) : List String → Option FileShape
  | [] => none
  | name :: rest => (s name).bind fun item => item.shapeAt rest

theorem shapeAt_update (s : Shelf) (a : String) (item : Option Item) (name : String)
    (rest : List String) :
    shapeAt (Function.update s a item) (name :: rest) =
      if name = a then item.bind fun item => item.shapeAt rest else s.shapeAt (name :: rest) := by
  rw [shapeAt, Function.update_apply]
  split <;> rfl

end Shelf

/-- The directory of a store: the path that names it, and the file tree without what is in it. -/
structure Site where
  root : FilePath
  directory : FilePlace
  place : FilePlace
  base : FileTree
  written : root.pieces ≠ []
  placed : base.place directory root = .ok place
  isDirectory : base.get? place = some .directory
  bare : ∀ rest, rest ≠ [] → base.get? (place ++ rest) = none

namespace Site

variable {site : Site} {shelf shelf' : Shelf} {w : World} {a b : String}

/-- Whether a place is inside the directory of the store. -/
def Inside (site : Site) (q : FilePlace) : Prop := ∃ rest, rest ≠ [] ∧ q = site.place ++ rest

/-- In a world the directory of the store holds just what is on a shelf. -/
structure Shows (site : Site) (shelf : Shelf) (w : World) : Prop where
  noFault : w.fault = none
  directory : w.directory = site.directory
  outside : ∀ q, ¬ site.Inside q → w.tree.get? q = site.base.get? q
  inside : ∀ rest, rest ≠ [] →
    (w.tree.entriesAt (site.place ++ rest)).map FileEntry.shape = (shelf.shapeAt rest).toList

namespace Shows

theorem not_inside_place (site : Site) : ¬ site.Inside site.place := by
  rintro ⟨rest, filled, same⟩
  exact filled (List.append_right_eq_self.1 same.symm)

theorem isDirectory_place (h : site.Shows shelf w) :
    w.tree.get? site.place = some .directory :=
  (h.outside _ (not_inside_place site)).trans site.isDirectory

/-- The path of the store still names its directory. -/
theorem place_root (h : site.Shows shelf w) :
    w.tree.place w.directory site.root = .ok site.place := by
  obtain ⟨notEmpty, noZero, way⟩ := FileTree.place_eq_ok.1 site.placed
  rw [h.directory]
  refine FileTree.place_eq_ok.2 ⟨notEmpty, noZero, ?_⟩
  exact FileTree.walk_congr h.outside site.bare way site.isDirectory

theorem get?_inside (h : site.Shows shelf w) {rest : List String} (filled : rest ≠ []) :
    (w.tree.get? (site.place ++ rest)).map FileEntry.shape = shelf.shapeAt rest := by
  have shapes := h.inside rest filled
  have place : site.place ++ rest ≠ [] := List.append_ne_nil_of_right_ne_nil _ filled
  rw [FileTree.get?_eq place, ← List.head?_map, shapes]
  cases shelf.shapeAt rest <;> rfl

theorem get?_folder (h : site.Shows shelf w) {files : String → Option ByteArray}
    (folder : shelf a = some (.folder files)) :
    w.tree.get? (site.place ++ [a]) = some .directory := by
  have shape := h.get?_inside (List.cons_ne_nil a [])
  rw [Shelf.shapeAt, folder] at shape
  obtain ⟨e, found, form⟩ := Option.map_eq_some_iff.1 shape
  cases e with
  | directory => exact found
  | file => cases form

theorem place_child (h : site.Shows shelf w) (name : IsPieceName a) :
    w.tree.place w.directory (site.root.join a) = .ok (site.place ++ [a]) :=
  FileTree.place_join h.place_root h.isDirectory_place name

theorem place_grandchild (h : site.Shows shelf w) (name : IsPieceName a)
    {files : String → Option ByteArray} (folder : shelf a = some (.folder files))
    (inner : IsPieceName b) :
    w.tree.place w.directory ((site.root.join a).join b) = .ok (site.place ++ [a, b]) := by
  have place := FileTree.place_join (h.place_child name) (h.get?_folder folder) inner
  rwa [List.append_assoc, List.singleton_append] at place

/-- What is on the shelf after a change of the file tree. -/
theorem of_tree (h : site.Shows shelf w) {tree : FileTree}
    (outside : ∀ q, ¬ site.Inside q → tree.entriesAt q = w.tree.entriesAt q)
    (inside : ∀ name rest, (tree.entriesAt (site.place ++ name :: rest)).map FileEntry.shape =
      (shelf'.shapeAt (name :: rest)).toList) : site.Shows shelf' { w with tree } where
  noFault := h.noFault
  directory := h.directory
  outside q apart := by
    by_cases root : q = []
    · rw [← h.outside q apart, root]
      rfl
    · rw [← h.outside q apart, FileTree.get?_eq root, FileTree.get?_eq root, outside q apart]
  inside rest filled := by
    obtain ⟨name, rest, rfl⟩ := List.exists_cons_of_ne_nil filled
    exact inside name rest

section Trees

open FileTree

theorem ne_of_not_inside {q : FilePlace} (apart : ¬ site.Inside q) (name : String)
    (rest : List String) : q ≠ site.place ++ name :: rest := fun same =>
  apart ⟨name :: rest, List.cons_ne_nil _ _, same⟩

theorem not_prefix_of_not_inside {q : FilePlace} (apart : ¬ site.Inside q) (name : String) :
    ¬ site.place ++ [name] <+: q := by
  rintro ⟨rest, same⟩
  rw [List.append_assoc, List.singleton_append] at same
  exact ne_of_not_inside apart name rest same.symm

/-- An entry that stands alone is put under a name. -/
theorem set_child (h : site.Shows shelf w) (item : Item) {e : FileEntry}
    (form : item.shapeAt [] = some e.shape) (empty : ∀ b rest, item.shapeAt (b :: rest) = none)
    (before : ∀ b rest, shelf.shapeAt (a :: b :: rest) = none) :
    site.Shows (Function.update shelf a (some item))
      { w with tree := w.tree.set (site.place ++ [a]) e } := by
  refine h.of_tree (fun q apart => ?_) fun name rest => ?_
  · rw [entriesAt_set, if_neg (ne_of_not_inside apart a [])]
  · rw [entriesAt_set, Shelf.shapeAt_update]
    simp only [List.append_right_inj, List.cons.injEq]
    by_cases same : name = a
    · cases rest with
      | nil =>
        rw [if_pos ⟨same, rfl⟩, if_pos same, Option.bind_some, form]
        rfl
      | cons b rest =>
        -- Nothing is below the new entry: `before` says so of the tree, `empty` of the item.
        have none := h.inside (a :: b :: rest) (List.cons_ne_nil _ _)
        rw [before] at none
        rw [if_neg (by simp), if_pos same, same, none, Option.bind_some, empty]
    · rw [if_neg (by simp [same]), if_neg same]
      exact h.inside _ (List.cons_ne_nil _ _)

/-- A file is put into a directory. -/
theorem set_grandchild (h : site.Shows shelf w) {files : String → Option ByteArray}
    (folder : shelf a = some (.folder files)) (content : ByteArray) (time : Int) :
    site.Shows (Function.update shelf a (some (.folder (Function.update files b (some content)))))
      { w with tree := w.tree.set (site.place ++ [a, b]) (.file content time) } := by
  refine h.of_tree (fun q apart => ?_) fun name rest => ?_
  · rw [entriesAt_set, if_neg (ne_of_not_inside apart a [b])]
  · have old := h.inside (name :: rest) (List.cons_ne_nil _ _)
    rw [entriesAt_set, Shelf.shapeAt_update]
    simp only [List.append_right_inj, List.cons.injEq]
    by_cases same : name = a
    · rw [if_pos same, Option.bind_some]
      rw [same, Shelf.shapeAt, folder, Option.bind_some] at old
      rw [same]
      -- Only the file of the name `b` changes; the directory itself and what is deeper stay.
      rcases rest with _ | ⟨c, _ | ⟨d, rest⟩⟩
      · rw [if_neg (by simp), old]
        rfl
      · rw [Item.shapeAt, Function.update_apply]
        by_cases here : c = b
        · rw [if_pos ⟨rfl, by rw [here]⟩, if_pos here]
          rfl
        · rw [if_neg (by simp [here]), if_neg here, old]
          rfl
      · rw [if_neg (by simp), old]
        rfl
    · rw [if_neg (by simp [same]), if_neg same, old]

theorem erase_child (h : site.Shows shelf w) {content : ByteArray}
    (file : shelf a = some (.file content)) :
    site.Shows (Function.update shelf a none)
      { w with tree := w.tree.erase (site.place ++ [a]) } := by
  refine h.of_tree (fun q apart => ?_) fun name rest => ?_
  · rw [entriesAt_erase, if_neg (ne_of_not_inside apart a [])]
  · have old := h.inside (name :: rest) (List.cons_ne_nil _ _)
    rw [entriesAt_erase, Shelf.shapeAt_update]
    simp only [List.append_right_inj, List.cons.injEq]
    by_cases same : name = a
    · rw [if_pos same, Option.bind_none]
      rw [same, Shelf.shapeAt, file, Option.bind_some] at old
      cases rest with
      | nil =>
        rw [if_pos ⟨same, rfl⟩]
        rfl
      | cons b rest =>
        rw [if_neg (by simp), same, old]
        rfl
    · rw [if_neg (by simp [same]), if_neg same, old]

theorem eraseBelow_child (h : site.Shows shelf w) (a : String) :
    site.Shows (Function.update shelf a none)
      { w with tree := w.tree.eraseBelow (site.place ++ [a]) } := by
  refine h.of_tree (fun q apart => ?_) fun name rest => ?_
  · rw [entriesAt_eraseBelow, if_neg (not_prefix_of_not_inside apart a)]
  · rw [entriesAt_eraseBelow, Shelf.shapeAt_update]
    simp only [List.prefix_append_right_inj]
    by_cases same : name = a
    · rw [if_pos (by simp [same]), if_pos same]
      rfl
    · rw [if_neg (by simp [Ne.symm same]), if_neg same]
      exact h.inside _ (List.cons_ne_nil _ _)

/-- What stands under a name is moved to a free one. -/
theorem move_child (h : site.Shows shelf w) (free : shelf b = none) (unlike : a ≠ b) :
    site.Shows (Function.update (Function.update shelf b (shelf a)) a none)
      { w with
        tree := (w.tree.erase (site.place ++ [b])).move (site.place ++ [a])
          (site.place ++ [b]) } := by
  -- The entry that is moved over is erased first, so no entry is at or below the target.
  have empty : ∀ rest, (w.tree.erase (site.place ++ [b])).entriesAt (site.place ++ [b] ++ rest) =
      [] := by
    intro rest
    have old := h.inside (b :: rest) (List.cons_ne_nil _ _)
    rw [Shelf.shapeAt, free] at old
    rw [entriesAt_erase]
    split
    · rfl
    · rw [List.append_assoc]
      exact List.map_eq_nil_iff.1 old
  refine h.of_tree (fun q apart => ?_) fun name rest => ?_
  · rw [entriesAt_move_other (not_prefix_of_not_inside apart b),
      if_neg (not_prefix_of_not_inside apart a), entriesAt_erase,
      if_neg (ne_of_not_inside apart b [])]
  · have old := h.inside (name :: rest) (List.cons_ne_nil _ _)
    rw [Shelf.shapeAt_update]
    by_cases here : name = b
    · have form : site.place ++ name :: rest = site.place ++ [b] ++ rest := by simp [here]
      rw [form, entriesAt_move_target empty, entriesAt_erase, if_neg (by simp [unlike]),
        if_neg (by rw [here]; exact Ne.symm unlike), Shelf.shapeAt_update, if_pos here,
        List.append_assoc]
      exact h.inside (a :: rest) (List.cons_ne_nil _ _)
    · rw [entriesAt_move_other (by simp [Ne.symm here])]
      simp only [List.prefix_append_right_inj]
      by_cases source : name = a
      · rw [if_pos (by simp [source]), if_pos source]
        rfl
      · rw [if_neg (by simp [Ne.symm source]), if_neg source, Shelf.shapeAt_update, if_neg here,
          entriesAt_erase, if_neg (by simp [here]), old]

end Trees

end Shows

end Site

end ProductSpec
