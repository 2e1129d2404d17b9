/-
  The creation of a directory and of those around it: only directories on the way to it are
  created, and after a success it is there.
-/
import ProductSpec.Proofs.File.Footprint

namespace ProductSpec

namespace FilePath

variable {p p' : FilePath}

theorem startOf_take {directory : FilePlace} {i : Nat} {piece : String} (filled : piece ≠ "")
    (found : p.pieces[i]? = some piece) :
    FileTree.startOf directory ⟨p.pieces.take (i + 1)⟩ = FileTree.startOf directory p := by
  have same : (⟨p.pieces.take (i + 1)⟩ : FilePath).isAbsolute = p.isAbsolute := by
    obtain ⟨pieces⟩ := p
    match pieces, i with
    | [], _ => cases found
    | [first], _ => rw [List.take_succ_cons, List.take_nil]
    | first :: second :: rest, 0 =>
      cases found
      rw [isAbsolute_cons_cons]
      simp [isAbsolute, filled]
    | first :: second :: rest, i + 1 =>
      rw [List.take_succ_cons, List.take_succ_cons, isAbsolute_cons_cons, isAbsolute_cons_cons]
  rw [FileTree.startOf, same, FileTree.startOf]

theorem mem_names {piece : String} {i : Nat} (h : (piece, i) ∈ p.names) :
    piece ≠ "" ∧ p.pieces[i]? = some piece := by
  obtain ⟨mem, isName⟩ := List.mem_filter.1 h
  exact ⟨by simp at isName; exact isName.1, List.mem_zipIdx_iff_getElem?.1 mem⟩

/-- The directory of what a path names is named by the beginning of the path, or it is the one
where the path begins. -/
theorem parent?_cases (h : p.parent? = some p') :
    p' = (if p.isAbsolute then ⟨["", ""]⟩ else ⟨[""]⟩) ∨
      ∃ i piece, piece ≠ "" ∧ p.pieces[i]? = some piece ∧ p' = ⟨p.pieces.take (i + 1)⟩ := by
  unfold parent? at h
  split at h
  · cases h
  · exact .inl (Option.some.inj h).symm
  · next last piece i rest form =>
    have mem : (piece, i) ∈ p.names := by
      rw [← List.mem_reverse, form]
      exact List.mem_cons_of_mem _ List.mem_cons_self
    obtain ⟨filled, found⟩ := mem_names mem
    exact .inr ⟨i, piece, filled, found, (Option.some.inj h).symm⟩

theorem IsWritten.parent? (written : p.IsWritten) (h : p.parent? = some p') : p'.IsWritten := by
  rcases parent?_cases h with rfl | ⟨i, piece, -, found, rfl⟩
  · split <;> exact ⟨by simp, by simp⟩
  · refine ⟨?_, fun piece mem => written.noSlash piece (List.mem_of_mem_take mem)⟩
    simp [written.filled]

end FilePath

namespace FileTree

variable {directory q : FilePlace} {p p' : FilePath}

/-- The places on the way of a path: those to which its first pieces lead. -/
def OnWay (directory : FilePlace) (p : FilePath) (q : FilePlace) : Prop :=
  ∃ xs, xs <+: p.pieces ∧ q = followAll (startOf directory p) xs

theorem onWay_resolve (directory : FilePlace) (p : FilePath) :
    OnWay directory p (resolve directory p) :=
  ⟨p.pieces, List.prefix_rfl, rfl⟩

theorem followAll_empty {xs : List String} {here : FilePlace} (h : ∀ piece ∈ xs, piece = "") :
    followAll here xs = here := by
  induction xs with
  | nil => rfl
  | cons piece rest ih =>
    rw [List.forall_mem_cons] at h
    change followAll (follow here piece) rest = here
    rw [h.1, follow_empty, ih h.2]

theorem OnWay.of_parent? (parent : p.parent? = some p') (h : OnWay directory p' q) :
    OnWay directory p q := by
  obtain ⟨xs, isPrefix, rfl⟩ := h
  rcases FilePath.parent?_cases parent with rfl | ⟨i, piece, filled, found, rfl⟩
  · -- The path of the beginning leads nowhere else.
    refine ⟨[], List.nil_prefix, ?_⟩
    rw [followAll_empty fun piece mem => ?_]
    · unfold startOf
      cases absolute : p.isAbsolute <;> rfl
    · have mem := isPrefix.subset mem
      revert mem
      split <;> simp
  · rw [FilePath.startOf_take filled found]
    exact ⟨xs, isPrefix.trans (List.take_prefix _ _), rfl⟩

/-- The way to an entry of a directory is the way to the directory, and then the entry. -/
theorem exists_way_join (directory : FilePlace) (p : FilePath) {name : String}
    (isName : IsPieceName name) : ∃ before, (p.join name).pieces = before ++ [name] ∧
      startOf directory (p.join name) = startOf directory p ∧
        ∀ xs, xs <+: before → OnWay directory p (followAll (startOf directory p) xs) := by
  cases empty : p.isEmpty with
  | true =>
    have pieces : p.pieces = [""] := beq_iff_eq.1 empty
    rw [FilePath.join_of_isEmpty empty, FilePath.ofText_of_noSlash isName.noSlash]
    refine ⟨[], rfl, by simp [startOf, FilePath.isAbsolute, pieces], fun xs isPrefix => ?_⟩
    exact ⟨xs, isPrefix.trans List.nil_prefix, rfl⟩
  | false =>
    have start : startOf directory (p.join name) = startOf directory p := by
      rw [startOf, FilePath.isAbsolute_join_ofText (isAbsolute_ofText_name isName) empty, startOf]
    rcases FilePath.join_eq empty isName with form | ⟨before, pieces, form⟩
    · exact ⟨p.pieces, by rw [form], start, fun xs isPrefix => ⟨xs, isPrefix, rfl⟩⟩
    · refine ⟨before, by rw [form], start, fun xs isPrefix => ⟨xs, ?_, rfl⟩⟩
      exact pieces ▸ isPrefix.trans (List.prefix_append _ _)

theorem OnWay.of_join {name : String} (isName : IsPieceName name)
    (h : OnWay directory (p.join name) q) :
    OnWay directory p q ∨ q = resolve directory (p.join name) := by
  obtain ⟨xs, isPrefix, rfl⟩ := h
  obtain ⟨before, form, start, onWay⟩ := exists_way_join directory p isName
  rcases List.prefix_concat_iff.1 (form ▸ isPrefix) with whole | isPrefix
  · exact .inr (by rw [resolve, form, whole])
  · exact .inl (start ▸ onWay xs isPrefix)

/-- A way that goes on begins in a directory. -/
theorem isDirectory_of_walk {t : FileTree} {here : FilePlace} {piece : String} {rest : List String}
    (way : t.walk here (piece :: rest) = .ok q) (onward : ¬ (piece = "" ∧ rest = [])) :
    t.get? here = some .directory :=
  ((walk_cons_cases way).resolve_right fun ends => onward ⟨ends.2.1, ends.2.2.1⟩).1

/-- The way to a name leads through the directory that the name is in. -/
theorem walk_concat {t : FileTree} {here q : FilePlace} {xs : List String} {name : String}
    (filled : name ≠ "") (way : t.walk here (xs ++ [name]) = .ok q) :
    ∃ p, t.walk here xs = .ok p ∧ t.get? p = some .directory := by
  induction xs generalizing here with
  | nil => exact ⟨here, rfl, isDirectory_of_walk way (by simp [filled])⟩
  | cons piece rest ih =>
    have start := isDirectory_of_walk way (by simp)
    rw [List.cons_append, walk_cons start] at way
    rw [walk_cons start]
    exact ih way

/-- A way to a name is still there if the directories that it passes are. -/
theorem walk_of_directories {t t' : FileTree} {here : FilePlace} {xs : List String} {name : String}
    (filled : name ≠ "") (way : t.walk here (xs ++ [name]) = .ok q)
    (directories : ∀ ys, ys <+: xs → t.get? (followAll here ys) = some .directory →
      t'.get? (followAll here ys) = some .directory) : t'.walk here (xs ++ [name]) = .ok q := by
  induction xs generalizing here with
  | nil =>
    have start := isDirectory_of_walk way (by simp [filled])
    have start' : t'.get? here = some .directory := directories [] List.nil_prefix start
    rw [List.nil_append, walk_cons start] at way
    rw [List.nil_append, walk_cons start']
    exact way
  | cons piece rest ih =>
    have start := isDirectory_of_walk way (by simp)
    have start' : t'.get? here = some .directory := directories [] List.nil_prefix start
    rw [List.cons_append, walk_cons start] at way
    rw [List.cons_append, walk_cons start']
    exact ih way fun ys isPrefix =>
      directories (piece :: ys) (List.cons_prefix_cons.2 ⟨rfl, isPrefix⟩)

end FileTree

namespace FilePath

theorem isWritten_ofText (s : String) : (ofText s).IsWritten := by
  refine ⟨pieces_ofText_ne_nil s, fun piece mem => ?_⟩
  obtain ⟨chars, isPiece, rfl⟩ := List.mem_map.1 mem
  rw [String.toList_ofList]
  exact Text.notMem_of_mem_split isPiece

/-- A path that is joined to a written one is written. -/
theorem IsWritten.join {p : FilePath} (written : p.IsWritten) (s : String) :
    (p.join s).IsWritten := by
  have text := isWritten_ofText s
  unfold FilePath.join
  split
  · exact text
  · split
    · exact ⟨by simp [text.filled], fun piece mem => (List.mem_append.1 mem).elim
        (fun mem => written.noSlash piece (List.dropLast_subset _ mem)) (text.noSlash piece)⟩
    · exact ⟨by simp [text.filled], fun piece mem => (List.mem_append.1 mem).elim
        (written.noSlash piece) (text.noSlash piece)⟩

end FilePath

namespace FileProgram

open FileTree

variable {directory : FilePlace} {inside way : FilePlace → Prop} {p : FilePath}

theorem within_isDirectory (p : FilePath) : (isDirectory p).Within directory inside way :=
  (within_look (.kind p) rfl).bind fun _ => .done _

theorem within_createDirectoriesFrom (depth : Nat) (written : p.IsWritten)
    (onWay : ∀ q, OnWay directory p q → inside q ∨ way q) :
    (createDirectoriesFrom depth p).Within directory inside way := by
  have create : (perform (.createDirectory p)).Within directory inside way :=
    within_perform ⟨written, onWay _ (onWay_resolve directory p)⟩
  induction depth generalizing p with
  | zero => exact create
  | succ depth ih =>
    rw [createDirectoriesFrom]
    split
    · exact within_pure _
    · refine create.bind fun reply => ?_
      split
      · exact within_pure _
      · split
        · exact within_pure _
        · next parent =>
          have onWay' := fun q h => onWay q (OnWay.of_parent? parent h)
          refine Within.bind (ih (written.parent? parent) onWay' (within_perform
            ⟨written.parent? parent, onWay' _ (onWay_resolve directory _)⟩)) fun reply => ?_
          split
          · exact within_pure _
          · refine create.bind fun reply => ?_
            split
            · exact within_pure _
            · exact (within_isDirectory p).bind fun _ => within_pure _
      · exact (within_isDirectory p).bind fun _ => within_pure _

end FileProgram

namespace World

open FileProgram

variable {w w' : World} {p : FilePath}

/-- A path leads to a directory. -/
def LeadsToDirectory (w : World) (p : FilePath) : Prop :=
  ∃ q, w.Places p q ∧ w.tree.get? q = some .directory

theorem leadsToDirectory_createDirectory (h : (w.answer (.createDirectory p)).1 = .ok ()) :
    (w.answer (.createDirectory p)).2.LeadsToDirectory p := by
  have effect := effect_answer (r := .createDirectory p) (congrArg FileRequest.errorOf h)
  have directory := (answer_cases w (.createDirectory p)).1
  unfold LeadsToDirectory Places
  rw [directory]
  generalize (w.answer (.createDirectory p)).2.tree = tree at effect
  cases effect with
  | look h => cases h
  | @createDirectory _ q placed free =>
    obtain ⟨notEmpty, noZero, way⟩ := FileTree.place_eq_ok.1 placed
    have filled := FileTree.ne_nil_of_get? free nofun
    exact ⟨q, FileTree.place_eq_ok.2 ⟨notEmpty, noZero, FileTree.walk_set filled free way⟩,
      by rw [FileTree.get?_set filled, if_pos rfl]⟩

/-- After a path has been checked to be a directory it leads to one. -/
theorem leadsToDirectory_check {e : FileError}
    (h : (do return if ← isDirectory p then .ok () else .error e :
      FileProgram (Except FileError Unit)).run w = (.ok (), w')) : w'.LeadsToDirectory p := by
  rw [run_bind] at h
  cases found : ((isDirectory p).run w).1 with
  | true =>
    rw [← (Prod.mk.inj h).2]
    exact exists_place_of_isDirectory found
  | false =>
    rw [found] at h
    cases h

/-- After directories have been created the path leads to one. -/
theorem leadsToDirectory_createDirectoriesFrom {depth : Nat}
    (h : (createDirectoriesFrom depth p).run w = (.ok (), w')) :
    p.isEmpty = true ∨ w'.LeadsToDirectory p := by
  have made {w : World} (h : w.answer (.createDirectory p) = (.ok (), w')) :
      w'.LeadsToDirectory p := by
    have leads := leadsToDirectory_createDirectory (congrArg Prod.fst h)
    rwa [h] at leads
  cases depth with
  | zero => exact .inr (made h)
  | succ depth =>
    rw [createDirectoriesFrom] at h
    split at h
    · next empty => exact .inl empty
    · refine .inr ?_
      rw [run_bind, run_perform] at h
      split at h
      · next created => exact made (Prod.ext created (Prod.mk.inj h).2)
      · split at h
        · cases h
        · rw [run_bind] at h
          split at h
          · cases h
          · rw [run_bind, run_perform] at h
            split at h
            · next created => exact made (Prod.ext created (Prod.mk.inj h).2)
            · exact leadsToDirectory_check h
      · exact leadsToDirectory_check h

/-- The entries of the directory that a path leads to are found by their names. -/
def Reaches (w : World) (p : FilePath) : Prop :=
  ∀ name, IsPieceName name → w.Places (p.join name) (FileTree.resolve w.directory p ++ [name])

theorem LeadsToDirectory.reaches (h : w.LeadsToDirectory p) : w.Reaches p := by
  obtain ⟨q, placed, directory⟩ := h
  obtain rfl := FileTree.place_eq_resolve placed
  exact fun name isName => FileTree.place_join placed directory isName

/-- The empty path reaches what is in the directory from which it is seen. -/
theorem reaches_of_isEmpty (empty : p.isEmpty = true)
    (directory : w.tree.get? (FileTree.resolve w.directory p) = some .directory) :
    w.Reaches p := by
  intro name isName
  have pieces : p.pieces = [""] := beq_iff_eq.1 empty
  have place : FileTree.resolve w.directory p = w.directory := by
    simp [FileTree.resolve, FileTree.startOf, FilePath.isAbsolute, pieces, FileTree.followAll,
      FileTree.follow_empty]
  have joined : p.join name = ⟨[name]⟩ := by
    rw [FilePath.join_of_isEmpty empty, FilePath.ofText_of_noSlash isName.noSlash]
  have start : FileTree.startOf w.directory ⟨[name]⟩ = w.directory := by
    simp [FileTree.startOf, FilePath.isAbsolute]
  rw [place] at directory ⊢
  rw [joined]
  refine FileTree.place_eq_ok.2 ⟨by simpa [FilePath.isEmpty] using isName.filled,
    by simpa using isName.noZero, ?_⟩
  rw [start, FileTree.walk_cons directory, FileTree.follow_name isName]
  rfl

/-- Where one name of a directory leads, each of its names leads into it. -/
theorem reaches_of_places {name : String} {q : FilePlace} (isName : IsPieceName name)
    (placed : w.Places (p.join name) q) : w.Reaches p := by
  obtain ⟨-, noZero, way⟩ := FileTree.place_eq_ok.1 placed
  obtain ⟨_, -, start, -⟩ := FileTree.exists_way_join w.directory p isName
  rw [start] at way
  cases empty : p.isEmpty with
  | true =>
    rw [FilePath.join_of_isEmpty empty, FilePath.ofText_of_noSlash isName.noSlash] at way
    refine reaches_of_isEmpty empty ?_
    rw [FileTree.resolve, beq_iff_eq.1 empty, FileTree.followAll_empty (by simp)]
    exact FileTree.isDirectory_of_walk way (by simp [isName.filled])
  | false =>
    obtain ⟨before, form, whole⟩ := FilePath.pieces_join empty isName
    rw [form] at noZero way
    have known : ∀ piece ∈ before, '\x00' ∉ piece.toList := fun piece mem =>
      noZero piece (List.mem_append_left _ mem)
    obtain ⟨q', way', directory⟩ := FileTree.walk_concat isName.filled way
    refine LeadsToDirectory.reaches ⟨q', FileTree.place_eq_ok.2 ⟨empty, ?_⟩, directory⟩
    rcases whole with whole | whole
    · rw [whole]
      exact ⟨known, way'⟩
    · rw [whole, FileTree.walk_append way' directory, FileTree.walk_cons directory,
        FileTree.follow_empty]
      exact ⟨List.forall_mem_append.2 ⟨known, by simp⟩, rfl⟩

/-- What a path reaches it still reaches after changes off the way to it. -/
theorem Reaches.kept {inside way : FilePlace → Prop} (h : w.Reaches p)
    (kept : w.Kept inside way w') (off : ∀ q, FileTree.OnWay w.directory p q → ¬ inside q) :
    w'.Reaches p := by
  intro name isName
  obtain ⟨before, form, start, onWay⟩ := FileTree.exists_way_join w.directory p isName
  obtain ⟨notEmpty, noZero, found⟩ := FileTree.place_eq_ok.1 (h name isName)
  unfold Places
  rw [kept.directory]
  refine FileTree.place_eq_ok.2 ⟨notEmpty, noZero, ?_⟩
  rw [form, start] at found ⊢
  exact FileTree.walk_of_directories isName.filled found fun ys isPrefix =>
    kept.tree.isDirectory (off _ (onWay ys isPrefix))

end World

namespace FileAction

variable {directory : FilePlace} {inside way : FilePlace → Prop} {p : FilePath} {w w' : World}

theorem within_createDirectories (written : p.IsWritten)
    (onWay : ∀ q, FileTree.OnWay directory p q → inside q ∨ way q) :
    (createDirectories p).Within directory inside way :=
  within_ofFile (FileProgram.within_createDirectoriesFrom _ written onWay)

/-- After directories have been created the path leads to one. -/
theorem Yields.leadsToDirectory (h : Yields (createDirectories p) w (.ok ()) w') :
    p.isEmpty = true ∨ w'.LeadsToDirectory p := by
  obtain ⟨reply, ran, made⟩ := h.ofFile_cases
  cases reply with
  | error => cases made
  | ok => exact World.leadsToDirectory_createDirectoriesFrom ran

theorem Yields.reaches (h : Yields (createDirectories p) w (.ok ()) w')
    (directory : w'.tree.get? (FileTree.resolve w'.directory p) = some .directory) :
    w'.Reaches p :=
  h.leadsToDirectory.elim (fun empty => World.reaches_of_isEmpty empty directory) fun leads =>
    leads.reaches

theorem yields_exists? {q : FilePlace} (placed : w.Places p q) :
    Yields (exists? p) w (.ok (w.tree.get? q).isSome) w := by
  refine yields_ofProgram ?_
  rw [FileProgram.exists?, FileProgram.run_bind, FileProgram.run_perform, World.answer_kind placed,
    Option.isSome_map]
  rfl

end FileAction

end ProductSpec
