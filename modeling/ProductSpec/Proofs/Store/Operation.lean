/-
  The operations that a store performs on its files, by what they do to what is on its shelf.
-/
import ProductSpec.Proofs.File.Reading
import ProductSpec.Proofs.Store.Shelf
import ProductSpec.Store.Lock

namespace ProductSpec

namespace Site.Shows

open FileAction FileProgram

variable {site : Site} {shelf : Shelf} {w : World} {a b c : String}
  {files others : String → Option ByteArray} {content : ByteArray}

section Looking

theorem kind_inside (h : site.Shows shelf w) {rest : List String} (filled : rest ≠ []) :
    (w.tree.get? (site.place ++ rest)).map FileEntry.kind =
      (shelf.shapeAt rest).map FileShape.kind := by
  rw [← h.get?_inside filled, Option.map_map]
  cases w.tree.get? (site.place ++ rest) with
  | none => rfl
  | some e => exact congrArg some e.kind_shape.symm

theorem exists? (h : site.Shows shelf w) (name : IsPieceName a) :
    Yields (FileAction.exists? (site.root.join a)) w (.ok (shelf a).isSome) w := by
  have kind := h.kind_inside (List.cons_ne_nil a [])
  refine yields_ofProgram ?_
  rw [FileProgram.exists?, run_bind, run_perform, World.answer_kind (h.place_child name), kind,
    Shelf.shapeAt]
  cases shelf a with
  | none => rfl
  | some item => cases item <;> rfl

theorem isDirectory_root (h : site.Shows shelf w) :
    (FileProgram.isDirectory site.root).run w = (true, w) := by
  rw [World.run_isDirectory h.place_root, h.isDirectory_place]
  rfl

theorem isFile (h : site.Shows shelf w) (name : IsPieceName a) (inner : IsPieceName b)
    (folder : shelf a = some (.folder files)) :
    Yields (FileAction.isFile ((site.root.join a).join b)) w (.ok (files b).isSome) w := by
  have kind := h.kind_inside (List.cons_ne_nil a [b])
  refine yields_ofProgram ?_
  rw [FileProgram.isFile, run_bind, run_perform,
    World.answer_kind (h.place_grandchild name folder inner), kind, Shelf.shapeAt, folder,
    Option.bind_some, Item.shapeAt]
  cases files b <;> rfl

/-- A file on the shelf is in the tree. -/
theorem get?_of_file (h : site.Shows shelf w) {rest : List String} (filled : rest ≠ [])
    (file : shelf.shapeAt rest = some (.file content)) :
    ∃ time, w.tree.get? (site.place ++ rest) = some (.file content time) := by
  have shape := h.get?_inside filled
  rw [file] at shape
  obtain ⟨e, found, form⟩ := Option.map_eq_some_iff.1 shape
  cases e with
  | directory => cases form
  | file content time =>
    cases form
    exact ⟨time, found⟩

theorem get?_file (h : site.Shows shelf w) (folder : shelf a = some (.folder files))
    (file : files b = some content) :
    ∃ time, w.tree.get? (site.place ++ [a, b]) = some (.file content time) := by
  refine h.get?_of_file (List.cons_ne_nil a [b]) ?_
  rw [Shelf.shapeAt, folder, Option.bind_some, Item.shapeAt, file]
  rfl

theorem read (h : site.Shows shelf w) (name : IsPieceName a) (inner : IsPieceName b)
    (folder : shelf a = some (.folder files)) (file : files b = some content) :
    w.answer (.read ((site.root.join a).join b)) = (.ok content, w) := by
  obtain ⟨time, found⟩ := h.get?_file folder file
  have look := World.look_eq (h.place_grandchild name folder inner) w.tree.read
  rw [FileTree.read, FileTree.find, found] at look
  rw [World.answer, World.attempt_eq h.noFault, look]
  rfl

theorem readBytes (h : site.Shows shelf w) (name : IsPieceName a) (inner : IsPieceName b)
    (folder : shelf a = some (.folder files)) (file : files b = some content) :
    Yields (FileAction.readBytes ((site.root.join a).join b)) w (.ok content) w :=
  yields_ofFile (x := .ok content) <| by exact h.read name inner folder file

theorem readText (h : site.Shows shelf w) (name : IsPieceName a) (inner : IsPieceName b)
    (folder : shelf a = some (.folder files)) {text : String}
    (file : files b = some text.toUTF8) :
    Yields (FileAction.readText ((site.root.join a).join b)) w (.ok text) w := by
  refine yields_ofFile (x := .ok text) ?_
  rw [run_readText (h.read name inner folder file), fromUTF8?_eq_some.2 rfl]
  rfl

/-- The entries right below a place are those on the shelf. -/
theorem mem_children (h : site.Shows shelf w) (rest : List String) (e : String × FileKind) :
    e ∈ w.tree.children (site.place ++ rest) ↔
      (shelf.shapeAt (rest ++ [e.1])).map FileShape.kind = some e.2 := by
  have shapes := h.inside (rest ++ [e.1]) (by simp)
  have kinds : (w.tree.entriesAt (site.place ++ rest ++ [e.1])).map FileEntry.kind =
      ((shelf.shapeAt (rest ++ [e.1])).map FileShape.kind).toList := by
    rw [Option.toList_map, ← shapes, List.map_map, List.append_assoc]
    exact List.map_congr_left fun e _ => e.kind_shape.symm
  rw [FileTree.mem_children, ← List.mem_map, kinds, Option.mem_toList]

/-- The files in a directory of the store are listed in some order. -/
theorem list_child (h : site.Shows shelf w) (name : IsPieceName a)
    (folder : shelf a = some (.folder files)) :
    ∃ listed, Yields (ofFile (perform (.list (site.root.join a)))) w (.ok listed) w ∧
      ∀ e : String × FileKind, e ∈ listed ↔ e.2 = .file ∧ (files e.1).isSome = true := by
  refine ⟨w.tree.children (site.place ++ [a]), ?_, fun e => ?_⟩
  · have look := World.look_eq (h.place_child name) w.tree.list
    rw [FileTree.list, FileTree.find, h.get?_folder folder] at look
    refine yields_ofFile (x := .ok _) ?_
    rw [run_perform, World.answer, World.attempt_eq h.noFault, look]
    rfl
  · rw [h.mem_children, List.singleton_append, Shelf.shapeAt, folder, Option.bind_some,
      Item.shapeAt]
    cases files e.1 with
    | none => simp
    | some content => simp [FileShape.kind, eq_comm]

/-- What is in the directory of the store is listed in some order, each name once. -/
theorem list_root (h : site.Shows shelf w) :
    ∃ listed, Yields (ofFile (perform (.list site.root))) w (.ok listed) w ∧
      (listed.map Prod.fst).Nodup ∧
        ∀ e : String × FileKind, e ∈ listed ↔
          (shelf.shapeAt [e.1]).map FileShape.kind = some e.2 := by
  refine ⟨w.tree.children site.place, ?_, FileTree.nodup_children fun name => ?_, fun e => ?_⟩
  · have look := World.look_eq h.place_root w.tree.list
    rw [FileTree.list, FileTree.find, h.isDirectory_place] at look
    refine yields_ofFile (x := .ok _) ?_
    rw [run_perform, World.answer, World.attempt_eq h.noFault, look]
    rfl
  -- A name stands for one item, so no two entries have it.
  · have shapes := congrArg List.length (h.inside [name] (List.cons_ne_nil _ _))
    rw [List.length_map] at shapes
    rw [shapes]
    exact Option.length_toList_le
  · have listed := h.mem_children [] e
    rwa [List.append_nil] at listed

end Looking

section Changing

/-- What becomes of an operation that changes the tree at the place of a path. -/
theorem answer_change {p : FilePath} {q : FilePlace}
    {f : World → FilePlace → Except FileError FileTree} {tree : FileTree}
    (h : site.Shows shelf w) (placed : w.tree.place w.directory p = .ok q)
    (made : f w q = .ok tree) :
    w.attempt (fun w => w.change p (f w)) = (.ok (), { w with tree }) := by
  rw [World.attempt_eq h.noFault, World.change_eq placed made]

/-- What becomes of an operation that changes the tree at the place of a file. -/
theorem answer_changeFile {p : FilePath} {q : FilePlace}
    {f : World → FilePlace → Except FileError FileTree} {tree : FileTree}
    (h : site.Shows shelf w) (plain : p.endsInSlash = false)
    (placed : w.tree.place w.directory p = .ok q) (made : f w q = .ok tree) :
    w.attempt (fun w => w.changeFile p (f w)) = (.ok (), { w with tree }) := by
  refine h.answer_change (f := fun w q => if p.endsInSlash then .error .isDirectory else f w q)
    placed ?_
  rw [plain]
  exact made

theorem get?_free (h : site.Shows shelf w) (free : shelf a = none) :
    w.tree.get? (site.place ++ [a]) = none := by
  have shape := h.get?_inside (List.cons_ne_nil a [])
  rw [Shelf.shapeAt, free] at shape
  exact Option.map_eq_none_iff.1 shape

theorem write_grandchild (h : site.Shows shelf w) (folder : shelf a = some (.folder files))
    (content : ByteArray) (time : Int) :
    w.tree.write (site.place ++ [a, b]) content time =
      .ok (w.tree.set (site.place ++ [a, b]) (.file content time)) := by
  have shape := h.get?_inside (List.cons_ne_nil a [b])
  rw [Shelf.shapeAt, folder, Option.bind_some, Item.shapeAt] at shape
  rw [FileTree.write]
  split
  · next found =>
    rw [found] at shape
    cases old : files b with
    | none =>
      rw [old] at shape
      cases shape
    | some old' =>
      rw [old] at shape
      cases shape
  · rfl

theorem createDirectories_root (h : site.Shows shelf w) :
    Yields (FileAction.createDirectories site.root) w (.ok ()) w :=
  yields_createDirectories h.noFault site.written h.place_root h.isDirectory_place

theorem createDirectories (h : site.Shows shelf w) (name : IsPieceName a) (free : shelf a = none) :
    ∃ w', Yields (FileAction.createDirectories (site.root.join a)) w (.ok ()) w' ∧
      site.Shows (Function.update shelf a (some (.folder fun _ => none))) w' := by
  have before : ∀ b rest, shelf.shapeAt (a :: b :: rest) = none := by simp [Shelf.shapeAt, free]
  exact ⟨_, yields_createDirectories_of_free h.noFault (FilePath.pieces_join_ne_nil
      (FileTree.place_eq_ok.1 site.placed).1 name) (h.place_child name) (h.get?_free free),
    h.set_child (.folder fun _ => none) (e := .directory) rfl
      (fun b rest => by cases rest <;> rfl) before⟩

theorem get?_lone (h : site.Shows shelf w) (file : shelf a = some (.file content)) :
    ∃ time, w.tree.get? (site.place ++ [a]) = some (.file content time) := by
  refine h.get?_of_file (List.cons_ne_nil a []) ?_
  rw [Shelf.shapeAt, file]
  rfl

/-- A lock that nobody holds is taken. -/
theorem takeLock (h : site.Shows shelf w) (name : IsPieceName a) (free : shelf a = none) :
    ∃ w' content, Yields (Lock.take (site.root.join a)) w (.ok true) w' ∧
      site.Shows (Function.update shelf a (some (.file content))) w' := by
  have before : ∀ b rest, shelf.shapeAt (a :: b :: rest) = none := by simp [Shelf.shapeAt, free]
  have alone : ∀ content b rest, (Item.file content).shapeAt (b :: rest) = none := by
    intro content b rest
    cases rest <;> rfl
  have made : w.tree.createFile (site.place ++ [a]) w.clock =
      .ok (w.tree.set (site.place ++ [a]) (.file .empty w.clock)) := by
    rw [FileTree.createFile, h.get?_free free]
  -- The file is made empty first, and the line that tells when is appended to it.
  have created := h.set_child (.file .empty) (e := .file .empty w.clock) rfl
    (alone _) before
  have plain := FilePath.endsInSlash_join site.root name
  have answer := h.answer_changeFile (f := fun w q => w.tree.createFile q w.clock) plain
    (h.place_child name) made
  obtain ⟨time, found⟩ := created.get?_lone (Function.update_self a _ shelf)
  generalize ({ w with tree := w.tree.set (site.place ++ [a]) (.file .empty w.clock) } : World) = w₁
    at created answer found
  let line := (Lock.takenLine (.ofClock w₁.clock)).toUTF8
  have appended : w₁.tree.append (site.place ++ [a]) line w₁.clock =
      .ok (w₁.tree.set (site.place ++ [a]) (.file (.empty ++ line) w₁.clock)) := by
    rw [FileTree.append, found]
  have answer' := created.answer_changeFile (f := fun w q => w.tree.append q line w.clock) plain
    (created.place_child name) appended
  have told := created.set_child (.file (.empty ++ line))
    (e := .file (.empty ++ line) w₁.clock) rfl (alone _) fun b rest => by
      rw [Shelf.shapeAt, Function.update_self]
      exact alone .empty b rest
  rw [Function.update_idem] at told
  refine ⟨_, _, Yields.bind (x := true) ?_ (yields_pure true _), told⟩
  refine Yields.bind (yields_ofProgram answer) ?_
  refine Yields.bind (x := .ofClock w₁.clock) (yields_ofProgram rfl) ?_
  exact Yields.bind (yields_ofFile (x := .ok ()) answer') (yields_pure true _)

theorem releaseLock (h : site.Shows shelf w) (name : IsPieceName a)
    (file : shelf a = some (.file content)) :
    ∃ w', Yields (Lock.release (site.root.join a)) w (.ok ()) w' ∧
      site.Shows (Function.update shelf a none) w' := by
  refine ⟨_, yields_ofFile (x := .ok ()) ?_, h.erase_child file⟩
  obtain ⟨time, found⟩ := h.get?_lone file
  have made : w.tree.removeFile (site.place ++ [a]) = .ok (w.tree.erase (site.place ++ [a])) := by
    rw [FileTree.removeFile, FileTree.find, found]
    rfl
  exact h.answer_change (f := fun w => w.tree.removeFile) (h.place_child name) made

theorem writeText (h : site.Shows shelf w) (name : IsPieceName a) (inner : IsPieceName b)
    (folder : shelf a = some (.folder files)) (text : String) :
    ∃ w', Yields (FileAction.writeText ((site.root.join a).join b) text) w (.ok ()) w' ∧
      site.Shows (Function.update shelf a
        (some (.folder (Function.update files b (some text.toUTF8))))) w' := by
  refine ⟨_, yields_ofFile (x := .ok ()) ?_, h.set_grandchild folder text.toUTF8 w.clock⟩
  exact h.answer_changeFile (f := fun w q => w.tree.write q text.toUTF8 w.clock)
    (FilePath.endsInSlash_join _ inner) (h.place_grandchild name folder inner)
    (h.write_grandchild folder text.toUTF8 w.clock)

/-- A file of one directory is copied to another one. -/
theorem copy (h : site.Shows shelf w) (name : IsPieceName a) (inner : IsPieceName b)
    (folder : shelf a = some (.folder files)) (file : files b = some content)
    (name' : IsPieceName c) (folder' : shelf c = some (.folder others)) :
    ∃ w', Yields (ofFile (perform (.copy ((site.root.join a).join b) ((site.root.join c).join b))))
        w (.ok ()) w' ∧
      site.Shows (Function.update shelf c
        (some (.folder (Function.update others b (some content))))) w' := by
  refine ⟨_, yields_ofFile (x := .ok ()) ?_, h.set_grandchild folder' content w.clock⟩
  obtain ⟨time, found⟩ := h.get?_file folder file
  have read : w.tree.read (site.place ++ [a, b]) = .ok content := by
    rw [FileTree.read, FileTree.find, found]
    rfl
  refine h.answer_change (f := fun w source => w.look ((site.root.join c).join b) fun target =>
    if ((site.root.join c).join b).endsInSlash then .error .isDirectory
      else w.tree.copy source target w.clock) (h.place_grandchild name folder inner) ?_
  rw [World.look_eq (h.place_grandchild name' folder' inner), FilePath.endsInSlash_join _ inner,
    FileTree.copy, read]
  exact h.write_grandchild folder' content w.clock

theorem rename (h : site.Shows shelf w) (name : IsPieceName a)
    (folder : shelf a = some (.folder files)) (name' : IsPieceName b) (free : shelf b = none) :
    ∃ w', Yields (FileAction.rename (site.root.join a) (site.root.join b)) w (.ok ()) w' ∧
      site.Shows (Function.update (Function.update shelf b (some (.folder files))) a none) w' := by
  have unlike : a ≠ b := by
    rintro rfl
    cases free.symm.trans folder
  have moved := h.move_child free unlike
  rw [folder] at moved
  refine ⟨_, yields_ofFile (x := .ok ()) ?_, moved⟩
  refine h.answer_change (f := fun w source => w.look (site.root.join b) fun target =>
    w.tree.rename source target) (h.place_child name) ?_
  have apart : site.place ++ [a] ≠ site.place ++ [b] := by simp [unlike]
  -- Neither of the two places is inside the other, as both are right in the directory.
  have outside : (site.place ++ [a]).isPrefixOf (site.place ++ [b]) = false := by
    rw [Bool.eq_false_iff, Ne, List.isPrefixOf_iff_prefix, List.prefix_append_right_inj]
    simp [unlike]
  rw [World.look_eq (h.place_child name'), FileTree.rename, FileTree.find, h.get?_folder folder]
  simp only [FileTree.checkTarget, h.get?_free free, apart, outside]
  rfl

/-- What is not there is not removed. -/
theorem removeIfExists_of_free (h : site.Shows shelf w) (name : IsPieceName a)
    (free : shelf a = none) :
    Yields (FileAction.removeIfExists (site.root.join a)) w (.ok ()) w := by
  have asked := h.exists? name
  rw [free] at asked
  exact asked.bind (yields_pure () w)

theorem removeIfExists (h : site.Shows shelf w) (name : IsPieceName a)
    (folder : shelf a = some (.folder files)) :
    ∃ w', Yields (FileAction.removeIfExists (site.root.join a)) w (.ok ()) w' ∧
      site.Shows (Function.update shelf a none) w' := by
  have asked := h.exists? name
  rw [folder] at asked
  refine ⟨_, asked.bind (yields_ofFile (x := .ok ()) ?_), h.eraseBelow_child a⟩
  refine h.answer_change (f := fun w => w.tree.removeTree) (h.place_child name) ?_
  rw [FileTree.removeTree, FileTree.find, h.get?_folder folder]
  rfl

end Changing

end Site.Shows

end ProductSpec
