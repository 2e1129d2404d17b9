/-
  The search for the definition that a file is checked against when none is named. It comes to the
  first definition that is offered: the projects come in their order, under each of them the names
  of the file, and under each name the definitions by theirs. A file that is no definition is never
  offered, so it makes no difference when one more of them is there.
-/
import ProductSpec.Command.Check
import ProductSpec.Proofs.Project.Files

namespace ProductSpec

open FileAction

section First

variable {α : Type} {holds : α → Prop} {items : List α} {x y : α}

/-- The first item of a list of which something holds. -/
def IsFirst (holds : α → Prop) (items : List α) (x : α) : Prop :=
  ∃ before after, items = before ++ x :: after ∧ (∀ y ∈ before, ¬ holds y) ∧ holds x

theorem isFirst_cons_self (h : holds x) : IsFirst holds (x :: items) x :=
  ⟨[], items, rfl, List.forall_mem_nil _, h⟩

theorem IsFirst.cons (skipped : ¬ holds y) (h : IsFirst holds items x) :
    IsFirst holds (y :: items) x := by
  obtain ⟨before, after, rfl, others, here⟩ := h
  exact ⟨y :: before, after, rfl, List.forall_mem_cons.2 ⟨skipped, others⟩, here⟩

theorem IsFirst.mem (h : IsFirst holds items x) : x ∈ items ∧ holds x := by
  obtain ⟨before, after, rfl, -, here⟩ := h
  exact ⟨List.mem_append_right _ List.mem_cons_self, here⟩

theorem IsFirst.unique (h : IsFirst holds items x) (h' : IsFirst holds items y) : x = y := by
  obtain ⟨before, after, rfl, others, here⟩ := h
  obtain ⟨before', after', form, others', here'⟩ := h'
  induction before generalizing before' with
  | nil =>
    cases before' with
    | nil => exact (List.cons.inj form).1
    | cons z before' =>
      obtain ⟨rfl, -⟩ := List.cons.inj form
      exact absurd here (others' _ List.mem_cons_self)
  | cons z before ih =>
    obtain ⟨skipped, others⟩ := List.forall_mem_cons.1 others
    cases before' with
    | nil =>
      obtain ⟨rfl, -⟩ := List.cons.inj form
      exact absurd here' skipped
    | cons z' before' =>
      obtain ⟨rfl, tails⟩ := List.cons.inj form
      exact ih others before' tails (List.forall_mem_cons.1 others').2

end First

/-- At a path there is a definition that can be read, and it is for files of a name. -/
def Definition.IsFor (w : World) (path : FilePath) (file : String) : Prop :=
  ∃ text d pattern, w.LeadsToFile path text.toUTF8 ∧ Definition.read? text = some d ∧
    d.filePattern = some pattern ∧ matchesFilePattern pattern file = true

namespace Project

variable {w : World} {p : Project} {file : String}

/-- A project offers one of its definitions for files of a name. -/
structure Offers (w : World) (p : Project) (file definition : String) : Prop where
  listed : ∃ q, w.Places p.definitionsDir q ∧ w.tree.get? q = some .directory ∧
    (definition, .file) ∈ w.tree.children q
  named : isDefinitionName definition = true
  isFor : Definition.IsFor w (p.definitionsDir.join (.ofText definition)) file

/-- What a project has for files of a name: nothing, or the first definition that it offers. -/
inductive Has (w : World) (p : Project) (file : String) : Option FilePath → Prop
  | nothing : (∀ d, ¬ p.Offers w file d) → Has w p file none
  | first {d : String} : p.Offers w file d → (∀ d', p.Offers w file d' → d ≤ d') →
      Has w p file (some (p.definitionsDir.join (.ofText d)))

theorem onlyLooks_isFor (path : FilePath) (file : String) : OnlyLooks (isFor path file) := by
  refine onlyLooks_ofProgram (FileProgram.OnlyLooks.bind (Definition.onlyLooks_load path) ?_)
  rintro (e | d) <;> exact FileProgram.onlyLooks_pure _

theorem onlyLooks_definitionFor? (p : Project) (file : String) :
    OnlyLooks (p.definitionFor? file) := by
  have first (paths : List FilePath) : OnlyLooks (firstFor file paths) := by
    induction paths with
    | nil => exact onlyLooks_pure _
    | cons path rest ih =>
      refine (onlyLooks_isFor path file).bind fun isHere => ?_
      split
      · exact onlyLooks_pure _
      · exact ih
  have listed : OnlyLooks p.definitions := by
    refine (onlyLooks_ofProgram (FileProgram.onlyLooks_list _)).bind fun entries => ?_
    split <;> exact onlyLooks_pure _
  exact listed.bind first

theorem yields_isFor (noFault : w.fault = none) (path : FilePath) (file : String) :
    ∃ answer, Yields (isFor path file) w (.ok answer) w ∧
      (answer = true ↔ Definition.IsFor w path file) := by
  obtain ⟨result, loaded⟩ : ∃ result, Yields (Definition.load path) w result w :=
    ⟨_, (Definition.onlyLooks_load path).yields noFault⟩
  have asked (answer : Bool) (given : answer = match result with
      | .ok d => d.filePattern.any fun pattern => matchesFilePattern pattern file
      | .error _ => false) : Yields (isFor path file) w (.ok answer) w := by
    refine yields_ofProgram ?_
    rw [FileProgram.run_bind, loaded, given]
    cases result <;> rfl
  refine ⟨_, asked _ rfl, ?_⟩
  cases result with
  | error e =>
    refine ⟨nofun, ?_⟩
    rintro ⟨text, d, pattern, leads, known, -⟩
    cases (loaded.unique ((yields_ofText_iff noFault).2 ⟨text, leads, known, rfl⟩)).1
  | ok d =>
    obtain ⟨text, leads, known, -⟩ := (yields_ofText_iff noFault).1 loaded
    dsimp only
    rw [Option.any_eq_true]
    constructor
    · rintro ⟨pattern, given, fits⟩
      exact ⟨text, d, pattern, leads, known, given, fits⟩
    · rintro ⟨text', d', pattern, leads', known', given, fits⟩
      obtain rfl := String.toByteArray_inj.1 (leads.unique leads')
      cases known.symm.trans known'
      exact ⟨pattern, given, fits⟩

/-- The first of some definitions that is for files of a name, where they are in their order. -/
theorem yields_firstFor (noFault : w.fault = none) (file : String) (path : String → FilePath)
    {names : List String} (ordered : names.Pairwise (· ≤ ·)) :
    ∃ found, Yields (firstFor file (names.map path)) w (.ok found) w ∧
      ((found = none ∧ ∀ d ∈ names, ¬ Definition.IsFor w (path d) file) ∨
        ∃ d ∈ names, found = some (path d) ∧ Definition.IsFor w (path d) file ∧
          ∀ d' ∈ names, Definition.IsFor w (path d') file → d ≤ d') := by
  induction names with
  | nil => exact ⟨none, yields_pure none w, .inl ⟨rfl, List.forall_mem_nil _⟩⟩
  | cons name rest ih =>
    obtain ⟨above, ordered⟩ := List.pairwise_cons.1 ordered
    obtain ⟨answer, asked, right⟩ := yields_isFor noFault (path name) file
    cases answer with
    | true =>
      refine ⟨some (path name), asked.bind (yields_pure _ w), .inr
        ⟨name, List.mem_cons_self, rfl, right.1 rfl, fun d' mem _ => ?_⟩⟩
      rcases List.mem_cons.1 mem with rfl | mem
      · exact String.le_refl _
      · exact above d' mem
    | false =>
      have skipped : ¬ Definition.IsFor w (path name) file := fun h =>
        Bool.false_ne_true (right.2 h)
      obtain ⟨found, onward, cases_⟩ := ih ordered
      refine ⟨found, asked.bind onward, ?_⟩
      rcases cases_ with ⟨none, nowhere⟩ | ⟨d, mem, given, here, first⟩
      · exact .inl ⟨none, List.forall_mem_cons.2 ⟨skipped, nowhere⟩⟩
      · refine .inr ⟨d, List.mem_cons_of_mem _ mem, given, here, fun d' mem' isFor => ?_⟩
        rcases List.mem_cons.1 mem' with rfl | mem'
        · exact absurd isFor skipped
        · exact first d' mem' isFor

/-- The definitions among the entries of a directory, in the order of their names. -/
theorem definitionsAmong_eq (directory : FilePath) (entries : List (String × FileKind)) :
    ∃ names : List String, definitionsAmong directory entries =
        names.map (fun name => directory.join (.ofText name)) ∧
      names.Pairwise (· ≤ ·) ∧
      ∀ name, name ∈ names ↔ (name, .file) ∈ entries ∧ isDefinitionName name = true := by
  refine ⟨_, rfl, ?_, fun name => ?_⟩
  · have trans (a b c : String) (h : decide (a ≤ b) = true) (h' : decide (b ≤ c) = true) :
        decide (a ≤ c) = true :=
      decide_eq_true (String.le_trans (of_decide_eq_true h) (of_decide_eq_true h'))
    have total (a b : String) : (decide (a ≤ b) || decide (b ≤ a)) = true := by
      simpa using String.le_total a b
    exact (List.pairwise_mergeSort trans total _).imp of_decide_eq_true
  · simp only [List.mem_mergeSort, List.mem_filterMap, Option.ite_none_right_eq_some,
      Option.some.injEq, Prod.exists]
    constructor
    · rintro ⟨name, kind, mem, ⟨rfl, named⟩, rfl⟩
      exact ⟨mem, named⟩
    · rintro ⟨mem, named⟩
      exact ⟨name, .file, mem, ⟨rfl, named⟩, rfl⟩

/-- The definitions of a project are searched in the order of their names. -/
theorem yields_definitionFor? (noFault : w.fault = none) (p : Project) (file : String) :
    ∃ found, Yields (p.definitionFor? file) w (.ok found) w ∧ p.Has w file found := by
  have asked : Yields (ofProgram (.perform (.list p.definitionsDir))) w
      (.ok (w.look p.definitionsDir w.tree.list)) w :=
    yields_ofProgram (World.attempt_eq noFault _)
  cases entries : w.look p.definitionsDir w.tree.list with
  | error e =>
    rw [entries] at asked
    have listed : Yields p.definitions w (.ok []) w := asked.bind (yields_pure [] w)
    refine ⟨none, listed.bind (yields_pure none w), .nothing ?_⟩
    rintro d ⟨⟨q, placed, isDirectory, -⟩, -, -⟩
    cases entries.symm.trans (World.look_list_eq_ok.2 ⟨q, placed, isDirectory, rfl⟩)
  | ok entries' =>
    rw [entries] at asked
    obtain ⟨q, placed, isDirectory, rfl⟩ := World.look_list_eq_ok.1 entries
    obtain ⟨names, form, ordered, mem⟩ := definitionsAmong_eq p.definitionsDir (w.tree.children q)
    obtain ⟨found, searched, right⟩ := yields_firstFor noFault file
      (fun name => p.definitionsDir.join (.ofText name)) ordered
    have listed : Yields p.definitions w
        (.ok (names.map fun name => p.definitionsDir.join (.ofText name))) w := by
      rw [← form]
      exact asked.bind (yields_pure _ w)
    refine ⟨found, listed.bind searched, ?_⟩
    have offered {d : String} (offer : p.Offers w file d) : d ∈ names := by
      obtain ⟨⟨q', placed', -, child⟩, named, -⟩ := offer
      obtain rfl := Except.ok.inj (placed.symm.trans placed')
      exact (mem d).2 ⟨child, named⟩
    rcases right with ⟨rfl, nowhere⟩ | ⟨d, isHere, rfl, isFor, first⟩
    · exact .nothing fun d offer => nowhere d (offered offer) offer.isFor
    · obtain ⟨child, named⟩ := (mem d).1 isHere
      exact .first ⟨⟨q, placed, isDirectory, child⟩, named, isFor⟩
        fun d' offer => first d' (offered offer) offer.isFor

theorem Has.unique {found found' : Option FilePath} (h : p.Has w file found)
    (h' : p.Has w file found') : found = found' := by
  cases h with
  | nothing none =>
    cases h' with
    | nothing => rfl
    | first offer => exact absurd offer (none _)
  | first offer first =>
    cases h' with
    | nothing none => exact absurd offer (none _)
    | first offer' first' => rw [String.le_antisymm (first _ offer') (first' _ offer)]

section WithFile

variable {directory : FilePlace} {name : String} {content : ByteArray} {modified : Int}
  (free : w.tree.get? (directory ++ [name]) = none) (isName : IsPieceName name)
  (unreadable : ∀ text : String, content = text.toUTF8 → Definition.read? text = none)

include free unreadable

theorem isFor_withFile_iff {path : FilePath} :
    Definition.IsFor (w.withFile directory name content modified) path file ↔
      Definition.IsFor w path file := by
  constructor
  · rintro ⟨text, d, pattern, leads, known, fits⟩
    rcases leads.of_withFile free with before | same
    · exact ⟨text, d, pattern, before, known, fits⟩
    · cases known.symm.trans (unreadable text same.symm)
  · rintro ⟨text, d, pattern, leads, known, fits⟩
    exact ⟨text, d, pattern, leads.withFile free, known, fits⟩

include isName

/-- A file that is no definition is not offered, and hides none. -/
theorem offers_withFile_iff {d : String} :
    p.Offers (w.withFile directory name content modified) file d ↔ p.Offers w file d := by
  have entries {q : FilePlace} (elsewhere : q ++ [d] ≠ directory ++ [name]) :
      (d, .file) ∈ (w.withFile directory name content modified).tree.children q ↔
        (d, .file) ∈ w.tree.children q := by
    rw [FileTree.mem_children, FileTree.mem_children, World.withFile, FileTree.entriesAt_set,
      if_neg elsewhere]
  constructor
  · rintro ⟨⟨q, placed, isDirectory, child⟩, named, isFor⟩
    have before := placed.of_withFile free (by rw [isDirectory]; exact Option.some_ne_none _)
    have wasDirectory := (World.isDirectory_withFile free).1 isDirectory
    have wasFor := (isFor_withFile_iff free unreadable).1 isFor
    refine ⟨⟨q, before, wasDirectory, (entries ?_).1 child⟩, named, wasFor⟩
    -- The new file would be the definition, and that was there before.
    intro same
    obtain ⟨rfl, rfl⟩ : q = directory ∧ d = name := by simpa using same
    obtain ⟨text, -, -, ⟨q', time, placed', found⟩, -⟩ := wasFor
    have here := FileTree.place_join before wasDirectory isName
    obtain rfl := Except.ok.inj (here.symm.trans placed')
    cases free.symm.trans found
  · rintro ⟨⟨q, placed, isDirectory, child⟩, named, isFor⟩
    refine ⟨⟨q, placed.withFile free (by rw [isDirectory]; exact Option.some_ne_none _),
      (World.isDirectory_withFile free).2 isDirectory, (entries ?_).2 child⟩, named,
      (isFor_withFile_iff free unreadable).2 isFor⟩
    intro same
    obtain ⟨e, isEntry, -⟩ := FileTree.mem_children.1 child
    rw [same, (FileTree.get?_eq_none (by simp)).1 free] at isEntry
    cases isEntry

theorem Has.withFile {found : Option FilePath} (h : p.Has w file found) :
    p.Has (w.withFile directory name content modified) file found := by
  cases h with
  | nothing none =>
    exact .nothing fun d offer => none d ((offers_withFile_iff free isName unreadable).1 offer)
  | first offer first =>
    exact .first ((offers_withFile_iff free isName unreadable).2 offer) fun d' offer' =>
      first d' ((offers_withFile_iff free isName unreadable).1 offer')

end WithFile

end Project

namespace Command

variable {w : World} {projects : List Project} {names : List String}

section WithoutJson

/-- A name and what is left of it without any `.json` at its end. -/
def IsWithoutJson (name short : String) : Prop :=
  ∃ k, name.toList = short.toList ++ (List.replicate k ".json".toList).flatten ∧
    ¬ ".json".toList <:+ short.toList

theorem exists_drop {fuel : Nat} {cs : List Char} (enough : cs.length ≤ fuel) :
    ∃ k, cs = (List.replicate k "nosj.".toList).flatten ++ withoutJson.drop fuel cs ∧
      ¬ "nosj.".toList <+: withoutJson.drop fuel cs := by
  induction fuel generalizing cs with
  | zero =>
    rw [List.length_eq_zero_iff.1 (Nat.le_zero.1 enough)]
    exact ⟨0, rfl, by decide⟩
  | succ fuel ih =>
    rw [withoutJson.drop]
    split
    · next rest found =>
      obtain rfl := Text.dropStart?_eq_some_iff.1 found
      have fewer : rest.length ≤ fuel := by
        simp at enough
        omega
      obtain ⟨k, form, stop⟩ := ih fewer
      exact ⟨k + 1, by rw [List.replicate_succ, List.flatten_cons, List.append_assoc, ← form], stop⟩
    · next none =>
      refine ⟨0, rfl, ?_⟩
      rintro ⟨rest, rfl⟩
      cases none.symm.trans (Text.dropStart?_eq_some_iff.2 rfl)

/-- Nothing else can be left. -/
theorem drop_replicate {k fuel : Nat} {rest : List Char} (stop : ¬ "nosj.".toList <+: rest)
    (enough : ((List.replicate k "nosj.".toList).flatten ++ rest).length ≤ fuel) :
    withoutJson.drop fuel ((List.replicate k "nosj.".toList).flatten ++ rest) = rest := by
  obtain ⟨k', form, stop'⟩ := exists_drop enough
  generalize withoutJson.drop fuel _ = rest' at form stop' ⊢
  clear enough
  induction k generalizing k' with
  | zero =>
    cases k' with
    | zero => exact form.symm
    | succ k' =>
      refine absurd ⟨(List.replicate k' "nosj.".toList).flatten ++ rest', ?_⟩ stop
      rw [← List.append_assoc, ← List.flatten_cons, ← List.replicate_succ]
      exact form.symm
  | succ k ih =>
    rw [List.replicate_succ, List.flatten_cons, List.append_assoc] at form
    cases k' with
    | zero => exact absurd ⟨_, form⟩ stop'
    | succ k' =>
      rw [List.replicate_succ, List.flatten_cons, List.append_assoc, List.append_cancel_left_eq]
        at form
      exact ih k' form

theorem isWithoutJson_iff {name short : String} :
    IsWithoutJson name short ↔ short = withoutJson name := by
  have reversed (k : Nat) (rest : List Char) :
      (rest ++ (List.replicate k ".json".toList).flatten).reverse =
        (List.replicate k "nosj.".toList).flatten ++ rest.reverse := by
    rw [List.reverse_append, List.reverse_flatten, List.map_replicate, List.reverse_replicate]
    rfl
  have stops (rest : List Char) : "nosj.".toList <+: rest.reverse ↔ ".json".toList <:+ rest := by
    rw [show "nosj.".toList = ".json".toList.reverse from rfl, List.reverse_prefix]
  have left : (withoutJson name).toList =
      (withoutJson.drop name.length name.toList.reverse).reverse := String.toList_ofList
  have enough : name.toList.reverse.length ≤ name.length := by
    rw [List.length_reverse, String.length_toList]
  constructor
  · rintro ⟨k, form, stop⟩
    rw [form, reversed] at enough left
    rw [drop_replicate (mt (stops _).1 stop) enough, List.reverse_reverse] at left
    exact (String.toList_inj.1 left).symm
  · rintro rfl
    obtain ⟨k, form, stop⟩ := exists_drop enough
    rw [← List.reverse_reverse (withoutJson.drop _ _), ← left] at form stop
    refine ⟨k, ?_, mt (stops _).2 stop⟩
    rw [← List.reverse_inj, reversed]
    exact form

end WithoutJson

/-- What is found for a file with some names: nothing, or the first definition of the first project
that offers one. -/
inductive Found (w : World) (names : List String) (projects : List Project) :
    Option (FilePath × Project) → Prop
  | nothing : (∀ p ∈ projects, ∀ file ∈ names, ∀ d, ¬ p.Offers w file d) →
      Found w names projects none
  | first {p : Project} {file : String} {path : FilePath} :
      IsFirst (fun p => ∃ file ∈ names, ∃ d, p.Offers w file d) projects p →
      IsFirst (fun file => ∃ d, p.Offers w file d) names file →
      p.Has w file (some path) → Found w names projects (some (path, p))

theorem Found.unique {found found' : Option (FilePath × Project)} (h : Found w names projects found)
    (h' : Found w names projects found') : found = found' := by
  cases h with
  | nothing none =>
    cases h' with
    | nothing => rfl
    | first first =>
      obtain ⟨mem, file, isName, d, offer⟩ := first.mem
      exact absurd offer (none _ mem file isName d)
  | first first firstName has =>
    cases h' with
    | nothing none =>
      obtain ⟨mem, file, isName, d, offer⟩ := first.mem
      exact absurd offer (none _ mem file isName d)
    | first first' firstName' has' =>
      obtain rfl := first.unique first'
      obtain rfl := firstName.unique firstName'
      rw [Option.some.inj (has.unique has')]

/-- The names of a file are tried in their order. -/
theorem yields_definitionOf? (noFault : w.fault = none) (p : Project) (names : List String) :
    ∃ found, Yields (definitionOf? p names) w (.ok found) w ∧
      ((found = none ∧ ∀ file ∈ names, ∀ d, ¬ p.Offers w file d) ∨
        ∃ file path, found = some path ∧
          IsFirst (fun file => ∃ d, p.Offers w file d) names file ∧ p.Has w file (some path)) := by
  induction names with
  | nil => exact ⟨none, yields_pure none w, .inl ⟨rfl, List.forall_mem_nil _⟩⟩
  | cons file rest ih =>
    obtain ⟨found, searched, has⟩ := p.yields_definitionFor? noFault file
    cases has with
    | nothing none =>
      obtain ⟨found, onward, right⟩ := ih
      refine ⟨found, searched.bind onward, ?_⟩
      rcases right with ⟨rfl, nowhere⟩ | ⟨file', path, rfl, first, has⟩
      · exact .inl ⟨rfl, List.forall_mem_cons.2 ⟨none, nowhere⟩⟩
      · exact .inr ⟨file', path, rfl, first.cons (not_exists.2 none), has⟩
    | first offer first =>
      exact ⟨_, searched.bind (yields_pure _ w), .inr ⟨file, _, rfl, isFirst_cons_self ⟨_, offer⟩,
        .first offer first⟩⟩

/-- The projects are tried in their order. -/
theorem yields_findDefinition? (noFault : w.fault = none) (path : FilePath)
    (projects : List Project) :
    ∃ found, Yields (findDefinition? path projects) w (.ok found) w ∧
      Found w [path.name?.getD "", withoutJson (path.name?.getD "")] projects found := by
  induction projects with
  | nil => exact ⟨none, yields_pure none w, .nothing (List.forall_mem_nil _)⟩
  | cons p rest ih =>
    obtain ⟨found, searched, right⟩ :=
      yields_definitionOf? noFault p [path.name?.getD "", withoutJson (path.name?.getD "")]
    rcases right with ⟨rfl, nowhere⟩ | ⟨file, definition, rfl, first, has⟩
    · have skipped : ¬ ∃ file ∈ [path.name?.getD "", withoutJson (path.name?.getD "")],
          ∃ d, p.Offers w file d := fun ⟨file, mem, d, offer⟩ => nowhere file mem d offer
      obtain ⟨found, onward, right⟩ := ih
      refine ⟨found, searched.bind onward, ?_⟩
      cases right with
      | nothing none => exact .nothing (List.forall_mem_cons.2 ⟨nowhere, none⟩)
      | first first firstName has => exact .first (first.cons skipped) firstName has
    · exact ⟨_, searched.bind (yields_pure _ w),
        .first (isFirst_cons_self ⟨file, first.mem⟩) first has⟩

/-- The definition that a file is checked against, with its project: the one that is named with the
first project, or what is found for the name of the file as given and without `.json`. -/
def Selects (w : World) (c : CheckCommand) (projects : List Project)
    (selected : Option (FilePath × Project)) : Prop :=
  match c.definition with
  | some path => ∃ first others, projects = first :: others ∧ selected = some (path, first)
  | none => ∃ short, IsWithoutJson (c.file.name?.getD "") short ∧
      Found w [c.file.name?.getD "", short] projects selected

theorem Selects.unique {c : CheckCommand} {selected selected' : Option (FilePath × Project)}
    (h : Selects w c projects selected) (h' : Selects w c projects selected') :
    selected = selected' := by
  unfold Selects at h h'
  cases named : c.definition with
  | some path =>
    rw [named] at h h'
    obtain ⟨first, others, rfl, rfl⟩ := h
    obtain ⟨first', others', form, rfl⟩ := h'
    obtain ⟨rfl, -⟩ := List.cons.inj form
    rfl
  | none =>
    rw [named] at h h'
    obtain ⟨short, isShort, found⟩ := h
    obtain ⟨short', isShort', found'⟩ := h'
    obtain rfl := (isWithoutJson_iff.1 isShort).trans (isWithoutJson_iff.1 isShort').symm
    exact found.unique found'

theorem yields_definitionFor? (noFault : w.fault = none) (c : CheckCommand)
    (some_ : projects ≠ []) :
    ∃ selected, Yields (definitionFor? c projects) w (.ok selected) w ∧
      Selects w c projects selected := by
  obtain ⟨first, others, rfl⟩ := List.exists_cons_of_ne_nil some_
  unfold definitionFor? Selects
  cases c.definition with
  | some path => exact ⟨some (path, first), yields_pure _ w, first, others, rfl, rfl⟩
  | none =>
    obtain ⟨selected, searched, found⟩ := yields_findDefinition? noFault c.file (first :: others)
    exact ⟨selected, searched, _, isWithoutJson_iff.2 rfl, found⟩

theorem onlyLooks_definitionFor? (c : CheckCommand) (projects : List Project) :
    OnlyLooks (definitionFor? c projects) := by
  have among (p : Project) (names : List String) : OnlyLooks (definitionOf? p names) := by
    induction names with
    | nil => exact onlyLooks_pure _
    | cons file rest ih =>
      refine (p.onlyLooks_definitionFor? file).bind fun found => ?_
      split
      · exact onlyLooks_pure _
      · exact ih
  have search (projects : List Project) : OnlyLooks (findDefinition? c.file projects) := by
    induction projects with
    | nil => exact onlyLooks_pure _
    | cons p rest ih =>
      refine (among p _).bind fun found => ?_
      split
      · exact onlyLooks_pure _
      · exact ih
  unfold definitionFor?
  split
  · exact onlyLooks_pure _
  · exact search _

section WithFile

variable {directory : FilePlace} {name : String} {content : ByteArray} {modified : Int}
  (free : w.tree.get? (directory ++ [name]) = none) (isName : IsPieceName name)
  (unreadable : ∀ text : String, content = text.toUTF8 → Definition.read? text = none)

include free unreadable isName

theorem Found.withFile {found : Option (FilePath × Project)} (h : Found w names projects found) :
    Found (w.withFile directory name content modified) names projects found := by
  have same {p : Project} {file d : String} :
      p.Offers (w.withFile directory name content modified) file d ↔ p.Offers w file d :=
    Project.offers_withFile_iff free isName unreadable
  cases h with
  | nothing none =>
    refine .nothing ?_
    simpa only [same] using none
  | first first firstName has =>
    refine .first ?_ ?_ (has.withFile free isName unreadable)
    · simpa only [same] using first
    · simpa only [same] using firstName

/-- The same definition is selected when one more file is there that is no definition. -/
theorem Selects.withFile {c : CheckCommand} {selected : Option (FilePath × Project)}
    (h : Selects w c projects selected) :
    Selects (w.withFile directory name content modified) c projects selected := by
  unfold Selects at h ⊢
  split at h
  · exact h
  · obtain ⟨short, isShort, found⟩ := h
    exact ⟨short, isShort, found.withFile free isName unreadable⟩

end WithFile

end Command

end ProductSpec
