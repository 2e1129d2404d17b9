/-
  The entries of a store whose directory can be reached: what operations on them leave where, when
  they succeed and when they fail.
-/
import ProductSpec.Proofs.File.Refusal
import ProductSpec.Proofs.Store.Footprint
import ProductSpec.Proofs.Store.Freeze

namespace ProductSpec

open FileAction

namespace FileTree

variable {t t₁ t₂ : FileTree} {q : FilePlace} {files : String → Option ByteArray}

/-- At a place and below it one tree holds what another one does. -/
def SameBranch (t t' : FileTree) (q : FilePlace) : Prop :=
  ∀ rest, t'.entriesAt (q ++ rest) = t.entriesAt (q ++ rest)

/-- At a place and below it there is nothing. -/
def IsFree (t : FileTree) (q : FilePlace) : Prop := ∀ rest, t.entriesAt (q ++ rest) = []

/-- At a place there is a directory with just some files in it. -/
def IsFolder (t : FileTree) (q : FilePlace) (files : String → Option ByteArray) : Prop :=
  ∀ rest, (t.entriesAt (q ++ rest)).map FileEntry.shape = ((Item.folder files).shapeAt rest).toList

theorem SameBranch.refl (t : FileTree) (q : FilePlace) : t.SameBranch t q := fun _ => rfl

theorem SameBranch.trans (h : t.SameBranch t₁ q) (next : t₁.SameBranch t₂ q) : t.SameBranch t₂ q :=
  fun rest => (next rest).trans (h rest)

theorem SameBranch.get? (h : t.SameBranch t₁ q) (rest : List String) :
    t₁.get? (q ++ rest) = t.get? (q ++ rest) :=
  get?_congr (h rest)

theorem IsFree.congr (h : t.IsFree q) (same : t.SameBranch t₁ q) : t₁.IsFree q := fun rest =>
  (same rest).trans (h rest)

theorem IsFolder.congr (h : t.IsFolder q files) (same : t.SameBranch t₁ q) :
    t₁.IsFolder q files := fun rest => by
  rw [same rest]
  exact h rest

/-- Below what is not there is nothing. -/
theorem Proper.isFree (h : t.Proper) (filled : q ≠ []) (absent : t.get? q = none) :
    t.IsFree q := by
  intro rest
  cases rest with
  | nil => rwa [List.append_nil, ← get?_eq_none filled]
  | cons name rest => exact h.below (by rw [absent]; nofun) name rest

theorem isFree_eraseBelow : (t.eraseBelow q).IsFree q := fun rest => by
  rw [entriesAt_eraseBelow, if_pos (List.prefix_append _ _)]

theorem IsFolder.map_get? (h : t.IsFolder q files) (filled : q ≠ []) (rest : List String) :
    (t.get? (q ++ rest)).map FileEntry.shape = (Item.folder files).shapeAt rest := by
  have place : q ++ rest ≠ [] := List.append_ne_nil_of_left_ne_nil filled rest
  rw [get?_eq place, ← List.head?_map, h rest]
  cases (Item.folder files).shapeAt rest <;> rfl

theorem IsFolder.get? (h : t.IsFolder q files) (filled : q ≠ []) :
    t.get? q = some .directory := by
  have shape := h.map_get? filled []
  rw [List.append_nil] at shape
  obtain ⟨e, found, form⟩ := Option.map_eq_some_iff.1 shape
  cases e with
  | directory => exact found
  | file => cases form

theorem IsFolder.get?_file {name : String} {content : ByteArray} (h : t.IsFolder q files)
    (filled : q ≠ []) (isThere : files name = some content) :
    ∃ time, t.get? (q ++ [name]) = some (.file content time) := by
  have shape := h.map_get? filled [name]
  rw [Item.shapeAt, isThere] at shape
  obtain ⟨e, found, form⟩ := Option.map_eq_some_iff.1 shape
  cases e with
  | directory => cases form
  | file content' time =>
    cases form
    exact ⟨time, found⟩

/-- The files of a directory are called by names. -/
theorem IsFolder.isPieceName {name : String} (h : t.IsFolder q files) (proper : t.Proper)
    (isThere : (files name).isSome = true) : IsPieceName name := by
  refine proper.named (q ++ [name]) (fun free => ?_) name (by simp)
  have shapes := h [name]
  obtain ⟨content, found⟩ := Option.isSome_iff_exists.1 isThere
  rw [free, Item.shapeAt, found] at shapes
  cases shapes

/-- A file that is put into a directory is there in addition. -/
theorem IsFolder.set (h : t.IsFolder q files) (name : String) (content : ByteArray) (time : Int) :
    (t.set (q ++ [name]) (.file content time)).IsFolder q
      (Function.update files name (some content)) := by
  intro rest
  rw [entriesAt_set]
  match rest with
  | [] =>
    rw [if_neg (by simp)]
    exact h []
  | [other] =>
    have shape : (Item.folder (Function.update files name (some content))).shapeAt [other] =
        (Function.update files name (some content) other).map FileShape.file := rfl
    by_cases same : other = name
    · rw [if_pos (by rw [same]), shape, same, Function.update_self]
      rfl
    · rw [if_neg (by simp [same]), shape, Function.update_of_ne same]
      exact h [other]
  | first :: second :: rest =>
    rw [if_neg (by simp)]
    exact h (first :: second :: rest)

end FileTree

open FileTree

namespace Store

variable {s : Store} {d : FilePlace} {w w' w₁ w₂ : World} {names : List String} {a b : String}
  {n : Nat}

/-- The place of an entry of a store. -/
def entry (s : Store) (directory : FilePlace) (name : String) : FilePlace :=
  resolve directory s.root ++ [name]

/-- The way to a store does not lead through its entries. -/
def LiesApart (s : Store) (d : FilePlace) : Prop :=
  ∀ q, OnWay d s.root q → ∀ name rest, q ≠ resolve d s.root ++ name :: rest

/-- A way that never leads back does not. -/
theorem liesApart_of_straight (d : FilePlace) (straight : ".." ∉ s.root.pieces) :
    s.LiesApart d := by
  rintro q ⟨xs, ⟨onward, form⟩, rfl⟩ name rest same
  have forward : ".." ∉ onward := fun mem => straight (form ▸ List.mem_append_right _ mem)
  obtain ⟨more, ends⟩ : followAll (startOf d s.root) xs <+:
      followAll (followAll (startOf d s.root) xs) onward := followAll_below forward
  have whole : resolve d s.root = followAll (followAll (startOf d s.root) xs) onward := by
    rw [resolve, ← form, followAll, List.foldl_append]
    rfl
  have length := congrArg List.length same
  rw [whole, ← ends] at length
  simp at length

/-- What is kept outside of some entries of a store is the same in the other ones. -/
theorem LiesApart.sameBranch {name : String} (apart : s.LiesApart d)
    (kept : w.Kept (s.Owns d names) (OnWay d s.root) w') (outside : name ∉ names) :
    w.tree.SameBranch w'.tree (s.entry d name) := by
  intro rest
  rw [entry, List.append_assoc, List.singleton_append]
  refine kept.tree.entriesAt_eq ?_ fun onWay => apart _ onWay name rest rfl
  rintro ⟨other, mem, rest', same⟩
  obtain ⟨rfl, -⟩ := List.cons.inj (List.append_cancel_left same)
  exact outside mem

/-- The directory of a store can be reached, and the way to it does not lead through it. -/
structure Ready (s : Store) (d : FilePlace) (w : World) : Prop where
  proper : w.Proper
  directory : w.directory = d
  written : s.root.IsWritten
  apart : s.LiesApart d
  reaches : w.Reaches s.root

/-- From one world to another a store stays ready, and no entries but those of some names
change. -/
structure Touches (s : Store) (d : FilePlace) (names : List String) (w w' : World) : Prop where
  ready : s.Ready d w'
  same : ∀ name, name ∉ names → w.tree.SameBranch w'.tree (s.entry d name)

theorem Touches.trans (h : s.Touches d names w w₁) (next : s.Touches d names w₁ w₂) :
    s.Touches d names w w₂ where
  ready := next.ready
  same name outside := (h.same name outside).trans (next.same name outside)

theorem Touches.keeps {kept : List String} (h : s.Touches d names w w')
    (others : ∀ name ∈ kept, name ∉ names) :
    ∀ name ∈ kept, w.tree.SameBranch w'.tree (s.entry d name) := fun name mem =>
  h.same name (others name mem)

namespace Ready

variable (ready : s.Ready d w)

include ready

theorem calm : s.Ready d w.calm :=
  ⟨⟨ready.proper.tree, ready.proper.named⟩, ready.directory, ready.written, ready.apart,
    ready.reaches⟩

theorem places (isName : IsPieceName a) : w.Places (s.file a) (s.entry d a) := by
  rw [entry, ← ready.directory]
  exact ready.reaches a isName

/-- An action that keeps within the entries of some names leaves the store ready and the other
entries as they are. -/
theorem touches {α : Type} {action : FileAction α} {x : Except Fault α}
    (within : action.Within d (s.Owns d names) (OnWay d s.root))
    (h : Suffers action w x w' n) : s.Touches d names w w' := by
  obtain rfl := ready.directory
  have kept := within.yields ready.proper h.yields
  refine ⟨⟨kept.proper, kept.directory, ready.written, ready.apart, ?_⟩,
    fun name outside => ready.apart.sameBranch kept outside⟩
  refine ready.reaches.kept kept fun q onWay => ?_
  rintro ⟨name, -, rest, rfl⟩
  exact ready.apart _ onWay name rest rfl

theorem touches_rename {x : Except Fault Unit} (isName : IsPieceName a) (isName' : IsPieceName b)
    (h : Suffers (rename (s.file a) (s.file b)) w x w' n) : s.Touches d [a, b] w w' :=
  ready.touches (within_rename (ready.written.join _)
    (inside_file (fun _ => id) List.mem_cons_self isName)
    (inside_file (fun _ => id) (List.mem_cons_of_mem _ List.mem_cons_self) isName')) h

theorem touches_removeTree {x : Except Fault Unit} (isName : IsPieceName a)
    (h : Suffers (removeTree (s.file a)) w x w' n) : s.Touches d [a] w w' :=
  ready.touches (within_removeTree (inside_file (fun _ => id) List.mem_cons_self isName)) h

theorem touches_removeIfExists {x : Except Fault Unit} (isName : IsPieceName a)
    (h : Suffers (removeIfExists (s.file a)) w x w' n) : s.Touches d [a] w w' :=
  ready.touches (within_removeIfExists (inside_file (fun _ => id) List.mem_cons_self isName)) h

theorem touches_release {x : Except Fault Unit} (isName : IsPieceName a)
    (h : Suffers (Lock.release (s.file a)) w x w' n) : s.Touches d [a] w w' :=
  ready.touches (Lock.within_release (here_file (fun _ => id) List.mem_cons_self isName)) h

omit ready in
theorem entry_ne_nil : s.entry d a ≠ [] := by simp [entry]

/-- It is known whether an entry is there. -/
theorem exists?_cases {x : Except Fault Bool} (isName : IsPieceName a)
    (h : Suffers (exists? (s.file a)) w x w' n) :
    w = w' ∧ n = 0 ∧ x = .ok (w.tree.get? (s.entry d a)).isSome := by
  obtain ⟨rfl, rfl⟩ := h.yields.unique (yields_exists? (ready.places isName))
  exact ⟨rfl, h.failures.symm, rfl⟩

theorem removeTree_cases {x : Except Fault Unit} (isName : IsPieceName a)
    (h : Suffers (removeTree (s.file a)) w x w' n) :
    (x = .ok () ∧ n = 0 ∧ w'.tree.IsFree (s.entry d a)) ∨
      (∃ e, x = .error e) ∧ n = 1 ∧ w'.tree = w.tree := by
  refine h.removeTree_cases.imp_left fun ⟨done, count, effect⟩ => ⟨done, count, ?_⟩
  generalize w'.tree = tree at effect
  cases effect with
  | look looks => cases looks
  | removeTree placed =>
    cases (ready.places isName).symm.trans placed
    exact isFree_eraseBelow

/-- Without a fault a directory is removed. -/
theorem removeTree_succeeds {x : Except Fault Unit} (isName : IsPieceName a)
    (noFault : w.fault = none) (directory : w.tree.get? (s.entry d a) = some .directory)
    (h : Suffers (removeTree (s.file a)) w x w' n) : x = .ok () := by
  have made : w.tree.removeTree (s.entry d a) = .ok (w.tree.eraseBelow (s.entry d a)) :=
    removeTree_eq_ok.2 ⟨directory, rfl⟩
  have answer : w.answer (.removeTree (s.file a)) =
      (.ok (), { w with tree := w.tree.eraseBelow (s.entry d a) }) := by
    rw [World.answer, World.attempt_eq noFault]
    exact World.change_eq (ready.places isName) made
  exact (h.yields.unique (yields_ofFile answer)).1

theorem removeIfExists_cases {x : Except Fault Unit} (isName : IsPieceName a)
    (h : Suffers (removeIfExists (s.file a)) w x w' n) :
    (x = .ok () ∧ n = 0 ∧ w'.tree.IsFree (s.entry d a)) ∨
      (∃ e, x = .error e) ∧ n = 1 ∧ w'.tree = w.tree := by
  rcases h.bind_cases with ⟨e, rfl, asked⟩ | ⟨there, w₁, n₁, n₂, asked, rest, rfl⟩
  · cases (ready.exists?_cases isName asked).2.2
  · obtain ⟨rfl, rfl, found⟩ := ready.exists?_cases isName asked
    rw [Nat.zero_add]
    cases there with
    | true => exact ready.removeTree_cases isName rest
    | false =>
      have absent : w.tree.get? (s.entry d a) = none := by
        simpa using (Except.ok.inj found).symm
      obtain ⟨rfl, rfl⟩ := rest.yields.unique (yields_pure () w)
      exact .inl ⟨rfl, rest.failures.symm,
        ready.proper.tree.isFree entry_ne_nil absent⟩

theorem rename_cases {x : Except Fault Unit} (isName : IsPieceName a) (isName' : IsPieceName b)
    (unlike : a ≠ b) (h : Suffers (rename (s.file a) (s.file b)) w x w' n) :
    (x = .ok () ∧ n = 0 ∧ (∀ rest, w'.tree.entriesAt (s.entry d b ++ rest) =
        w.tree.entriesAt (s.entry d a ++ rest)) ∧
      w'.tree.IsFree (s.entry d a)) ∨
      (∃ e, x = .error e) ∧ n = 1 ∧ w'.tree = w.tree := by
  refine h.rename_cases.imp_left fun ⟨done, count, effect⟩ => ⟨done, count, ?_⟩
  have places : s.entry d a ≠ s.entry d b := by simp [entry, unlike]
  generalize w'.tree = tree at effect
  cases effect with
  | look looks => cases looks
  | stay placed placed' =>
    cases (ready.places isName).symm.trans placed
    exact absurd (Except.ok.inj (placed'.symm.trans (ready.places isName'))) places
  | rename placed placed' found apart checked =>
    cases (ready.places isName).symm.trans placed
    cases (ready.places isName').symm.trans placed'
    refine ⟨ready.proper.tree.entriesAt_rename_target apart checked, fun rest => ?_⟩
    rw [entriesAt_rename_other, if_pos (List.prefix_append _ _)]
    simp [entry, List.append_assoc, Ne.symm unlike]

/-- Directories that are created under a name leave an empty one there. -/
theorem isFolder_createDirectories (isName : IsPieceName a)
    (free : w.tree.IsFree (s.entry d a))
    (h : Yields (createDirectories (s.file a)) w (.ok ()) w') :
    w'.tree.IsFolder (s.entry d a) fun _ => none := by
  obtain rfl := ready.directory
  have within : (createDirectories (s.file a)).Within w.directory (fun _ => False)
      (OnWay w.directory (s.file a)) :=
    within_createDirectories (ready.written.join _) fun q => .inr
  have kept := within.yields ready.proper h
  have notEmpty := (place_eq_ok.1 (ready.places isName)).1
  obtain ⟨q, placed, directory⟩ := h.leadsToDirectory.resolve_left (by rw [notEmpty]; nofun)
  have place : q = s.entry w.directory a := by
    rw [place_eq_resolve placed, kept.directory, file, resolve_child isName, entry]
  subst place
  intro rest
  cases rest with
  | nil =>
    have before := free []
    rw [List.append_nil] at before ⊢
    rcases kept.tree _ id with same | ⟨-, -, come⟩
    · rw [get?_eq entry_ne_nil, same, before] at directory
      cases directory
    · rw [come]
      rfl
  | cons name rest =>
    -- The way to the new directory ends there.
    have off : ¬ OnWay w.directory (s.file a) (s.entry w.directory a ++ name :: rest) := by
      intro onWay
      rcases onWay.of_join isName with onWay | same
      · refine ready.apart _ onWay a (name :: rest) ?_
        rw [entry, List.append_assoc, List.singleton_append]
      · rw [resolve_child isName, entry] at same
        simp at same
    rw [kept.tree.entriesAt_eq id off, free]
    cases rest <;> rfl

end Ready

end Store

theorem FilePath.mem_pieces_join {name : String} (noSlash : '/' ∉ name.toList) (p : FilePath) :
    name ∈ (p.join name).pieces := by
  rw [ofText_of_noSlash noSlash, FilePath.join]
  split
  · simp
  · split <;> simp

namespace Store

variable {s : Store} {d : FilePlace} {w w' : World} {a b name : String} {n : Nat}
  {files others : String → Option ByteArray}

/-- A text that names the entry of a directory if it can be part of a path at all. -/
def IsEntryName (name : String) : Prop :=
  '/' ∉ name.toList ∧ ('\x00' ∉ name.toList → IsPieceName name)

theorem IsEntryName.of_isPieceName (h : IsPieceName name) : IsEntryName name :=
  ⟨h.noSlash, fun _ => h⟩

theorem IsEntryName.follow (h : IsEntryName name) (here : FilePlace) :
    FileTree.follow here name = here ++ [name] := by
  by_cases zero : '\x00' ∈ name.toList
  · have unlike {other : String} (without : '\x00' ∉ other.toList) : name ≠ other := by
      rintro rfl
      exact without zero
    rw [FileTree.follow, if_neg (not_or.2 ⟨unlike (by decide), unlike (by decide)⟩),
      if_neg (unlike (by decide))]
  · exact follow_name (h.2 zero)

/-- The place of a file in an entry. -/
theorem resolve_inner (isName : IsPieceName a) (entryName : IsEntryName name) :
    resolve d ((s.file a).join name) = s.entry d a ++ [name] := by
  have text : FilePath.ofText name = ⟨[name]⟩ := FilePath.ofText_of_noSlash entryName.1
  rw [resolve_join (by simp [text, FilePath.isAbsolute]), file, resolve_child isName, text]
  exact entryName.follow _

theorem owns_inner (isName : IsPieceName a) (entryName : IsEntryName name) :
    s.Owns d [a] (resolve d ((s.file a).join name)) := by
  refine ⟨a, List.mem_singleton_self a, [name], ?_⟩
  rw [resolve_inner isName entryName, entry, List.append_assoc, List.singleton_append]

/-- The text of a file that has a place is the name of an entry. -/
theorem isPieceName_of_places (entryName : IsEntryName name) {q : FilePlace}
    (isName : IsPieceName a) (placed : w.Places ((s.file a).join name) q) :
    IsPieceName name ∧ q = s.entry w.directory a ++ [name] := by
  have noZero := (place_eq_ok.1 placed).2.1 name (FilePath.mem_pieces_join entryName.1 _)
  have piece := entryName.2 noZero
  exact ⟨piece, (place_eq_resolve placed).trans (resolve_inner isName entryName)⟩

/-- The files of a directory are listed in some order. -/
theorem mem_children (folder : w.tree.IsFolder (s.entry d a) files)
    (e : String × FileKind) : e ∈ w.tree.children (s.entry d a) ↔
      e.2 = .file ∧ (files e.1).isSome = true := by
  have shapes := folder [e.1]
  have kinds : (w.tree.entriesAt (s.entry d a ++ [e.1])).map FileEntry.kind =
      (((Item.folder files).shapeAt [e.1]).map FileShape.kind).toList := by
    rw [Option.toList_map, ← shapes, List.map_map]
    exact List.map_congr_left fun e _ => e.kind_shape.symm
  rw [FileTree.mem_children, ← List.mem_map, kinds, Option.mem_toList, Item.shapeAt]
  cases files e.1 with
  | none => simp
  | some content => simp [FileShape.kind, eq_comm]

namespace Ready

variable (ready : s.Ready d w)

include ready

theorem writeText_cases {text : String} {x : Except Fault Unit} (isName : IsPieceName a)
    (entryName : IsEntryName name)
    (h : Suffers (writeText ((s.file a).join name) text) w x w' n) :
    (x = .ok () ∧ n = 0 ∧ IsPieceName name ∧ s.Touches d [a] w w' ∧
      (w.tree.IsFolder (s.entry d a) files → w'.tree.IsFolder (s.entry d a)
        (Function.update files name (some text.toUTF8)))) ∨
      (∃ e, x = .error e) ∧ n = 1 := by
  refine h.writeText_cases.imp (fun ⟨done, count, effect⟩ => ?_) fun failed =>
    ⟨failed.1, failed.2.1⟩
  obtain ⟨q, placed, form⟩ : ∃ q, w.Places ((s.file a).join name) q ∧
      w'.tree = w.tree.set q (.file text.toUTF8 w.clock) := by
    generalize w'.tree = tree at effect
    cases effect with
    | look looks => cases looks
    | write placed => exact ⟨_, placed, rfl⟩
  obtain rfl := ready.directory
  obtain ⟨piece, rfl⟩ := isPieceName_of_places entryName isName placed
  have written : ((s.file a).join name).IsWritten := (ready.written.join a).join name
  have within : (writeText ((s.file a).join name) text).Within w.directory
      (s.Owns w.directory [a]) (OnWay w.directory s.root) :=
    within_writeText written (owns_inner isName entryName) text
  refine ⟨done, count, piece, ready.touches within h, fun folder => ?_⟩
  rw [form]
  exact folder.set name _ _

theorem copy_cases (files others : String → Option ByteArray) {x : Except Fault Unit}
    (isName : IsPieceName a) (isName' : IsPieceName b)
    (piece : IsPieceName name)
    (h : Suffers (ofFile (.perform (.copy ((s.file a).join name) ((s.file b).join name)))) w x w'
      n) :
    (x = .ok () ∧ n = 0 ∧ s.Touches d [b] w w' ∧
      (w.tree.IsFolder (s.entry d a) files →
        w.tree.IsFolder (s.entry d b) others →
        w'.tree.IsFolder (s.entry d b) (Function.update others name (files name)))) ∨
      (∃ e, x = .error e) ∧ n = 1 := by
  refine h.copy_cases.imp (fun ⟨done, count, effect⟩ => ?_) fun failed => ⟨failed.1, failed.2.1⟩
  have written : ((s.file b).join name).IsWritten := (ready.written.join b).join name
  have within : Within d (s.Owns d [b]) (OnWay d s.root)
      (ofFile (.perform (.copy ((s.file a).join name) ((s.file b).join name)))) :=
    within_ofFile (FileProgram.within_perform ⟨written, owns_inner isName' (.of_isPieceName piece)⟩)
  refine ⟨done, count, ready.touches within h, fun folder folder' => ?_⟩
  generalize w'.tree = tree at effect
  cases effect with
  | look looks => cases looks
  | @copy _ _ q q' content time placed placed' found =>
    obtain rfl := ready.directory
    obtain ⟨-, rfl⟩ := isPieceName_of_places (.of_isPieceName piece) isName placed
    obtain ⟨-, rfl⟩ := isPieceName_of_places (.of_isPieceName piece) isName' placed'
    -- The file that is read is the one in the directory that is copied from.
    have same : files name = some content := by
      have shape := folder.map_get? entry_ne_nil [name]
      rw [found] at shape
      obtain ⟨content', isThere, form⟩ := Option.map_eq_some_iff.1 shape.symm
      cases form
      exact isThere
    rw [same]
    exact folder'.set name _ _

/-- The files of a release that have been written are all in their directory. -/
theorem isFolder_writeArtifacts (isName : IsPieceName a) {artifacts : List Release.Artifact}
    (entryNames : ∀ x ∈ artifacts, IsEntryName x.file)
    (folder : w.tree.IsFolder (s.entry d a) files)
    (h : Suffers (writeArtifacts (s.file a) artifacts) w (.ok ()) w' n) :
    (∀ x ∈ artifacts, IsPieceName x.file) ∧
      w'.tree.IsFolder (s.entry d a) (artifacts.foldl Release.Artifact.put files) := by
  induction artifacts generalizing w files n with
  | nil =>
    obtain ⟨-, rfl⟩ := h.yields.unique (yields_pure () w)
    exact ⟨nofun, folder⟩
  | cons x rest ih =>
    rw [List.forall_mem_cons] at entryNames ⊢
    rcases h.bind_cases with ⟨e, failed, -⟩ | ⟨_, w₁, n₁, n₂, written, onward, -⟩
    · cases failed
    · rcases ready.writeText_cases isName entryNames.1 written with
        ⟨-, -, piece, touches, added⟩ | ⟨⟨e, failed⟩, -⟩
      · obtain ⟨pieces, all⟩ := ih touches.ready entryNames.2 (added folder) onward
        exact ⟨⟨piece, pieces⟩, all⟩
      · cases failed

theorem list_cases {x : Except Fault (List (String × FileKind))} (isName : IsPieceName a)
    (folder : w.tree.IsFolder (s.entry d a) files)
    (h : Suffers (ofFile (.perform (.list (s.file a)))) w x w' n) :
    n = 0 ∧ s.Touches d [] w w' ∧ (w.fault = none → ∃ listed, x = .ok listed) ∧
      ∀ listed, x = .ok listed → ∀ e : String × FileKind, e ∈ listed ↔
        e.2 = .file ∧ (files e.1).isSome = true := by
  have within : Within d (s.Owns d []) (OnWay d s.root)
      (ofFile (.perform (.list (s.file a)))) :=
    within_ofFile (FileProgram.within_look (.list (s.file a)) rfl)
  have touches := ready.touches within h
  obtain ⟨reply, ran, rfl, rfl⟩ := h.ofFile_cases
  have looked : w.look (s.file a) w.tree.list = .ok (w.tree.children (s.entry d a)) := by
    rw [World.look_eq (ready.places isName), FileTree.list, FileTree.find, folder.get? entry_ne_nil]
    rfl
  have answer : w.attempt (fun w => (w.look (s.file a) w.tree.list, w)) = (reply, w') := ran
  refine ⟨World.failures_of_not_counts rfl, touches, fun noFault => ?_, fun listed same => ?_⟩
  · rw [World.attempt_eq noFault, looked] at answer
    obtain ⟨rfl, -⟩ := Prod.mk.inj answer
    exact ⟨_, rfl⟩
  · rcases World.attempt_cases w fun w => (w.look (s.file a) w.tree.list, w) with
      ⟨e, struck⟩ | ⟨fault, carriedOut⟩
    · obtain ⟨rfl, -⟩ := Prod.mk.inj (answer.symm.trans struck)
      cases same
    · obtain ⟨rfl, -⟩ := Prod.mk.inj (answer.symm.trans carriedOut)
      change (w.look (s.file a) w.tree.list).mapError Fault.file = _ at same
      rw [looked] at same
      cases same
      exact mem_children folder

/-- The files that are listed have been copied. -/
theorem copyEntries_cases {x : Except Fault Unit} (isName : IsPieceName a)
    (isName' : IsPieceName b) (unlike : a ≠ b) {listed : List (String × FileKind)}
    (files? : ∀ e ∈ listed, e.2 = .file) (pieces : ∀ e ∈ listed, IsPieceName e.1)
    (folder : w.tree.IsFolder (s.entry d a) files)
    (folder' : w.tree.IsFolder (s.entry d b) others)
    (h : Suffers (copyEntries (s.file a) (s.file b) listed) w x w' n) :
    (x = .ok () ∧ n = 0 ∧ w'.tree.IsFolder (s.entry d b)
      (listed.foldl (fun others e => Function.update others e.1 (files e.1)) others)) ∨
      (∃ e, x = .error e) ∧ n = 1 := by
  induction listed generalizing w others n with
  | nil =>
    obtain ⟨rfl, rfl⟩ := h.yields.unique (yields_pure () w)
    exact .inl ⟨rfl, h.failures.symm, folder'⟩
  | cons e rest ih =>
    obtain ⟨name, kind⟩ := e
    obtain ⟨isFile, filesRest⟩ := List.forall_mem_cons.1 files?
    obtain ⟨piece, piecesRest⟩ := List.forall_mem_cons.1 pieces
    cases isFile
    rcases h.bind_cases with ⟨e, rfl, failed⟩ | ⟨_, w₁, n₁, n₂, copied, onward, rfl⟩
    · rcases ready.copy_cases files others isName isName' piece failed with
        ⟨done, -⟩ | ⟨-, count⟩
      · cases done
      · exact .inr ⟨⟨e, rfl⟩, count⟩
    · rcases ready.copy_cases files others isName isName' piece copied with
        ⟨-, rfl, touches, added⟩ | ⟨⟨e, failed⟩, -⟩
      · have folder₁ := folder.congr (touches.same a (by simpa using unlike))
        rw [Nat.zero_add]
        exact ih touches.ready filesRest piecesRest folder₁ (added folder folder') onward
      · cases failed

/-- Files that are written into a new directory are all in it, and nothing else is. -/
theorem fill_cases {x : Except Fault Unit} (isName : IsPieceName a)
    {artifacts : List Release.Artifact} (entryNames : ∀ x ∈ artifacts, IsEntryName x.file)
    (free : w.tree.IsFree (s.entry d a))
    (h : Suffers (do
      createDirectories (s.file a)
      writeArtifacts (s.file a) artifacts) w x w' n) :
    s.Touches d [a] w w' ∧ (x = .ok () → (∀ x ∈ artifacts, IsPieceName x.file) ∧
      w'.tree.IsFolder (s.entry d a) (artifacts.foldl Release.Artifact.put fun _ => none)) := by
  have written : (s.file a).IsWritten := ready.written.join a
  have create : (createDirectories (s.file a)).Within d (s.Owns d [a]) (OnWay d s.root) :=
    within_createDirectories written
      (onWay_file (fun _ => id) (fun _ => id) (List.mem_singleton_self a) isName)
  have fill : (writeArtifacts (s.file a) artifacts).Within d (s.Owns d [a]) (OnWay d s.root) :=
    within_writeArtifacts written fun x mem => owns_inner isName (entryNames x mem)
  refine ⟨ready.touches (create.bind fun _ => fill) h, ?_⟩
  rintro rfl
  rcases h.bind_cases with ⟨e, made, -⟩ | ⟨_, w₁, n₁, n₂, created, filling, -⟩
  · cases made
  · exact (ready.touches create created).ready.isFolder_writeArtifacts isName entryNames
      (ready.isFolder_createDirectories isName free created.yields) filling

theorem within_copyFiles (isName' : IsPieceName b) (source : FilePath) :
    (copyFiles source (s.file b)).Within d (s.Owns d [b])
      (OnWay d s.root) :=
  Store.within_copyFiles (ready.written.join _)
    (inside_file (fun _ => id) (List.mem_singleton_self b) isName')
    (onWay_file (fun _ => id) (fun _ => id) (List.mem_singleton_self b) isName')

/-- A copy of a directory holds its files. Without a fault and without failures the copy is
made. -/
theorem copyFiles_cases {x : Except Fault Unit} (isName : IsPieceName a) (isName' : IsPieceName b)
    (unlike : a ≠ b) (folder : w.tree.IsFolder (s.entry d a) files)
    (free : w.tree.IsFree (s.entry d b))
    (h : Suffers (copyFiles (s.file a) (s.file b)) w x w' n) :
    (x = .ok () → w'.tree.IsFolder (s.entry d b) files) ∧
      (w.fault = none → n = 0 → x = .ok ()) := by
  have create : (createDirectories (s.file b)).Within d (s.Owns d [b])
      (OnWay d s.root) :=
    within_createDirectories (ready.written.join _)
      (onWay_file (fun _ => id) (fun _ => id) (List.mem_singleton_self b) isName')
  rcases h.bind_cases with ⟨e, rfl, failed⟩ | ⟨_, w₁, n₁, n₂, created, onward, rfl⟩
  · refine ⟨nofun, fun noFault => ?_⟩
    have absent : w.tree.get? (s.entry d b) = none :=
      (get?_eq_none entry_ne_nil).2 (by simpa using free [])
    have made := yields_createDirectories_of_free noFault (ready.written.join b).filled
      (ready.places isName') absent
    cases (failed.yields.unique made).1
  · have touches := ready.touches create created
    have folder₁ := folder.congr (touches.same a (by simpa using unlike))
    have folder'₁ := ready.isFolder_createDirectories isName' free created.yields
    rcases onward.bind_cases with
      ⟨e, rfl, failed⟩ | ⟨listed, w₂, n₃, n₄, asked, copying, rfl⟩
    · refine ⟨nofun, fun noFault _ => ?_⟩
      obtain ⟨-, -, succeeds, -⟩ := touches.ready.list_cases isName folder₁ failed
      obtain ⟨listed, made⟩ := succeeds (created.fault_eq_none noFault)
      cases made
    · obtain ⟨-, touches₂, -, told⟩ := touches.ready.list_cases isName folder₁ asked
      have real := told listed rfl
      have pieces : ∀ e ∈ listed, IsPieceName e.1 := fun e mem =>
        folder₁.isPieceName touches.ready.proper.tree ((real e).1 mem).2
      have folder₂ := folder₁.congr (touches₂.same a List.not_mem_nil)
      have folder'₂ := folder'₁.congr (touches₂.same b List.not_mem_nil)
      rcases touches₂.ready.copyEntries_cases isName isName' unlike
        (fun e mem => ((real e).1 mem).1) pieces folder₂ folder'₂ copying with
        ⟨rfl, -, copied⟩ | ⟨⟨e, rfl⟩, count⟩
      · rw [Site.Shows.foldl_update_listed real] at copied
        exact ⟨fun _ => copied, fun _ _ => rfl⟩
      · exact ⟨nofun, fun _ none => by omega⟩

end Ready

end Store

end ProductSpec
