/-
  What a program may change. A program keeps within some places if every operation that it can
  ask for, whatever the replies are, changes nothing outside of them; then neither does its run.
-/
import ProductSpec.Fault
import ProductSpec.Proofs.File.Proper

namespace ProductSpec

/-- Outside of some places two trees hold the same, but for directories that have come on a way
where nothing was. -/
def FileTree.KeptOutside (inside way : FilePlace → Prop) (t t' : FileTree) : Prop :=
  ∀ q, ¬ inside q → t'.entriesAt q = t.entriesAt q ∨
    way q ∧ t.entriesAt q = [] ∧ t'.entriesAt q = [.directory]

namespace FileTree.KeptOutside

variable {inside inside' way : FilePlace → Prop} {t t₁ t₂ : FileTree} {q : FilePlace}

theorem refl (t : FileTree) : t.KeptOutside inside way t := fun _ _ => .inl rfl

theorem trans (h : t.KeptOutside inside way t₁) (next : t₁.KeptOutside inside way t₂) :
    t.KeptOutside inside way t₂ := by
  intro q outside
  rcases h q outside with same | ⟨onWay, free, come⟩
  · rw [← same]
    exact next q outside
  · rcases next q outside with same' | ⟨-, free', -⟩
    · exact .inr ⟨onWay, free, same'.trans come⟩
    · cases come.symm.trans free'

/-- Outside of the way nothing has come either. -/
theorem entriesAt_eq (h : t.KeptOutside inside way t₁) (outside : ¬ inside q) (off : ¬ way q) :
    t₁.entriesAt q = t.entriesAt q :=
  (h q outside).resolve_right fun come => off come.1

/-- Directories outside are still there. -/
theorem isDirectory (h : t.KeptOutside inside way t₁) (outside : ¬ inside q)
    (directory : t.get? q = some .directory) : t₁.get? q = some .directory := by
  rcases h q outside with same | ⟨-, -, come⟩
  · exact (get?_congr same).trans directory
  · by_cases root : q = []
    · rw [root]
      rfl
    · rw [get?_eq root, come]
      rfl

/-- The files outside are what they were. -/
theorem get?_file (h : t.KeptOutside inside way t₁) (outside : ¬ inside q) (content : ByteArray)
    (time : Int) :
    t₁.get? q = some (.file content time) ↔ t.get? q = some (.file content time) := by
  rcases h q outside with same | ⟨-, free, come⟩
  · rw [get?_congr same]
  · by_cases root : q = []
    · rw [root]
      exact ⟨nofun, nofun⟩
    · rw [get?_eq root, get?_eq root, come, free]
      exact ⟨nofun, nofun⟩

end FileTree.KeptOutside

section Within

variable (directory : FilePlace) (inside way : FilePlace → Prop)

/-- An operation changes nothing outside of some places, but that it may create a directory on a
way. -/
def FileRequest.Within : FileRequest → Prop
  | .createDirectory p => p.IsWritten ∧
      (inside (FileTree.resolve directory p) ∨ way (FileTree.resolve directory p))
  | .createFile p | .write p _ | .append p _ | .copy _ p => p.IsWritten ∧
      inside (FileTree.resolve directory p)
  | .removeFile p => inside (FileTree.resolve directory p)
  | .removeTree p => ∀ rest, inside (FileTree.resolve directory p ++ rest)
  | .rename p p' => p'.IsWritten ∧ (∀ rest, inside (FileTree.resolve directory p ++ rest)) ∧
      ∀ rest, inside (FileTree.resolve directory p' ++ rest)
  | _ => True

/-- The replies that there are in proper worlds: what is listed is listed by names. -/
def FileRequest.IsReply : (r : FileRequest) → r.Reply → Prop
  | .list _, .ok children => ∀ child ∈ children, IsPieceName child.1
  | _, _ => True

/-- Every operation that a program can ask for keeps within some places. -/
inductive FileProgram.Within {α : Type} : FileProgram α → Prop
  | done (x : α) : Within (.done x)
  | ask {r : FileRequest} {next : r.Reply → FileProgram α} : r.Within directory inside way →
      (∀ reply, r.IsReply reply → Within (next reply)) → Within (.ask r next)

/-- Every operation that an action can ask for keeps within some places. -/
def FileAction.Within {α : Type} (a : FileAction α) : Prop :=
  FileProgram.Within directory inside way (ExceptT.run a)

end Within

namespace World

open FileTree

variable {w w₁ w₂ : World} {inside way : FilePlace → Prop}

/-- From one proper world to another nothing changes outside of some places. -/
structure Kept (inside way : FilePlace → Prop) (w w' : World) : Prop where
  proper : w'.Proper
  directory : w'.directory = w.directory
  tree : w.tree.KeptOutside inside way w'.tree

theorem Kept.refl (h : w.Proper) : w.Kept inside way w := ⟨h, rfl, .refl _⟩

theorem Kept.trans (h : w.Kept inside way w₁) (next : w₁.Kept inside way w₂) :
    w.Kept inside way w₂ :=
  ⟨next.proper, next.directory.trans h.directory, h.tree.trans next.tree⟩

/-- What an operation makes of a tree is the same as before outside of the places within which it
keeps. -/
theorem Effect.keptOutside {r : FileRequest} {tree : FileTree}
    (effect : w.Effect r tree) (within : r.Within w.directory inside way) :
    w.tree.KeptOutside inside way tree := by
  intro q outside
  cases effect with
  | look | stay => exact .inl rfl
  | createDirectory placed free =>
    obtain rfl := place_eq_resolve placed
    rw [entriesAt_set]
    split
    · next same =>
      subst same
      have filled := ne_nil_of_get? free nofun
      exact .inr ⟨within.2.resolve_left outside, (get?_eq_none filled).1 free, rfl⟩
    · exact .inl rfl
  | createFile placed | write placed | append placed | copy _ placed =>
    obtain rfl := place_eq_resolve placed
    have other : q ≠ _ := fun same => outside (same ▸ within.2)
    exact .inl (by rw [entriesAt_set, if_neg other])
  | removeFile placed =>
    obtain rfl := place_eq_resolve placed
    have other : q ≠ _ := fun same => outside (same ▸ within)
    exact .inl (by rw [entriesAt_erase, if_neg other])
  | removeTree placed =>
    obtain rfl := place_eq_resolve placed
    refine .inl ?_
    rw [entriesAt_eraseBelow, if_neg]
    rintro ⟨rest, rfl⟩
    exact outside (within rest)
  | rename placed placed' =>
    obtain rfl := place_eq_resolve placed
    obtain rfl := place_eq_resolve placed'
    refine .inl ?_
    rw [entriesAt_rename_other, if_neg]
    · rintro ⟨rest, rfl⟩
      exact outside (within.2.1 rest)
    · rintro ⟨rest, rfl⟩
      exact outside (within.2.2 rest)

theorem isWritten_targets {directory : FilePlace} {r : FileRequest}
    (within : r.Within directory inside way) : ∀ p ∈ r.targets, p.IsWritten := by
  cases r with
  | createDirectory | createFile | write | append | copy | rename =>
    exact List.forall_mem_singleton.2 within.1
  | _ => exact nofun

/-- What is listed in a proper world is listed by names. -/
theorem Proper.isReply_answer (h : w.Proper) (r : FileRequest) : r.IsReply (w.answer r).1 := by
  cases r with
  | list p =>
    change FileRequest.IsReply (.list p) (w.attempt fun w => (w.look p w.tree.list, w)).1
    rcases attempt_cases w fun w => (w.look p w.tree.list, w) with ⟨e, outcome⟩ | ⟨fault, outcome⟩
    · rw [outcome]
      trivial
    · rw [outcome]
      change FileRequest.IsReply (.list p) (w.look p w.tree.list)
      cases looked : w.look p w.tree.list with
      | error => trivial
      | ok children =>
        obtain ⟨q, -, listed⟩ := bind_eq_ok.1 looked
        obtain ⟨e, -, listed⟩ := bind_eq_ok.1 listed
        cases e with
        | file => cases listed
        | directory =>
          cases listed
          rintro ⟨name, kind⟩ mem
          obtain ⟨e, isThere, -⟩ := mem_children.1 mem
          exact h.tree.named _ (List.ne_nil_of_mem isThere) name (by simp)
  | _ => trivial

/-- What one operation keeps. -/
theorem Proper.answer (h : w.Proper) {r : FileRequest} (within : r.Within w.directory inside way) :
    w.Kept inside way (w.answer r).2 := by
  obtain ⟨directory, ⟨e, -, kept⟩ | ⟨-, effect⟩⟩ := answer_cases w r
  · refine ⟨⟨?_, ?_⟩, directory, ?_⟩
    · rw [kept]
      exact h.tree
    · rw [directory]
      exact h.named
    · rw [kept]
      exact .refl _
  · refine ⟨⟨h.effect effect (isWritten_targets within), ?_⟩, directory,
      effect.keptOutside within⟩
    rw [directory]
    exact h.named

end World

namespace FileProgram

variable {α β : Type} {directory : FilePlace} {inside inside' way : FilePlace → Prop} {w : World}
  {p : FileProgram α}

/-- What a whole run keeps. -/
theorem Within.run (within : p.Within w.directory inside way) (h : w.Proper) :
    w.Kept inside way (p.run w).2 := by
  generalize from' : w.directory = directory at within
  induction within generalizing w with
  | done => exact .refl h
  | @ask r next keeps _ ih =>
    subst from'
    have first := h.answer keeps
    exact first.trans (ih _ (h.isReply_answer r) first.proper first.directory)

theorem within_pure (x : α) : (pure x : FileProgram α).Within directory inside way := .done x

theorem Within.bind {f : α → FileProgram β} (within : p.Within directory inside way)
    (next : ∀ x, (f x).Within directory inside way) : (p >>= f).Within directory inside way := by
  induction within with
  | done x => exact next x
  | ask keeps _ ih => exact .ask keeps ih

theorem within_perform {r : FileRequest} (within : r.Within directory inside way) :
    (perform r).Within directory inside way :=
  .ask within fun _ _ => .done _

/-- An operation that only looks may be asked for anywhere. -/
theorem within_look (r : FileRequest) (looks : r.onlyLooks = true) :
    (perform r).Within directory inside way := by
  refine within_perform ?_
  cases r with
  | now | kind | read | list | modified | canonical | pause | print => trivial
  | _ => cases looks

end FileProgram

namespace FileAction

variable {α β : Type} {directory : FilePlace} {inside way : FilePlace → Prop} {w : World}
  {a : FileAction α}

theorem within_pure (x : α) : Within directory inside way (pure x) :=
  FileProgram.within_pure (Except.ok x : Except Fault α)

theorem within_throw (e : Fault) : Within directory inside way (throw e : FileAction α) :=
  FileProgram.within_pure (Except.error e : Except Fault α)

theorem Within.bind {f : α → FileAction β} (within : a.Within directory inside way)
    (next : ∀ x, (f x).Within directory inside way) : (a >>= f).Within directory inside way :=
  FileProgram.Within.bind within fun result => by
    cases result with
    | ok x => exact next x
    | error e => exact within_throw e

theorem within_ofProgram {p : FileProgram α} (within : p.Within directory inside way) :
    (ofProgram p).Within directory inside way :=
  FileProgram.Within.bind within fun x => within_pure x

theorem within_ofFile {p : FileProgram (Except FileError α)}
    (within : p.Within directory inside way) : (ofFile p).Within directory inside way :=
  FileProgram.Within.bind within fun _ => FileProgram.within_pure _

/-- A value that may be missing is gone on with only if it is there. -/
theorem within_ofOption_bind {e : Fault} {x : Option α} {f : α → FileAction β}
    (next : ∀ y, x = some y → (f y).Within directory inside way) :
    (ofOption e x >>= f).Within directory inside way := by
  cases x with
  | none => exact within_throw e
  | some y => exact next y rfl

/-- What is listed is listed by names. -/
theorem within_list_bind {p : FilePath} {f : List (String × FileKind) → FileAction β}
    (next : ∀ children, (∀ child ∈ children, IsPieceName child.1) →
      (f children).Within directory inside way) :
    (ofFile (.perform (.list p)) >>= f).Within directory inside way := by
  refine .ask (r := .list p) trivial fun reply isReply => ?_
  cases reply with
  | error e => exact within_throw (.file e)
  | ok children => exact next children isReply

theorem Within.onFailure {undo : FileAction Unit} (within : a.Within directory inside way)
    (undoing : undo.Within directory inside way) :
    (a.onFailure undo).Within directory inside way :=
  FileProgram.Within.bind within fun result => by
    cases result with
    | ok x => exact within_pure x
    | error e => exact FileProgram.Within.bind undoing fun _ => within_throw e

theorem Within.finallyDo {last : FileAction Unit} (within : a.Within directory inside way)
    (ending : last.Within directory inside way) : (a.finallyDo last).Within directory inside way :=
  FileProgram.Within.bind within fun x =>
    FileProgram.Within.bind ending fun _ => FileProgram.within_pure x

theorem Within.tolerate {a : FileAction Unit} (within : a.Within directory inside way) :
    (tolerate a).Within directory inside way :=
  within_ofProgram (FileProgram.Within.bind within fun _ => FileProgram.within_pure ())

theorem Within.ite {c : Prop} [Decidable c] {b : FileAction α}
    (yes : a.Within directory inside way) (no : b.Within directory inside way) :
    Within directory inside way (if c then a else b) := by
  split
  · exact yes
  · exact no

section Operations

variable {p p' : FilePath}

theorem within_exists? (p : FilePath) : (exists? p).Within directory inside way :=
  within_ofProgram ((FileProgram.within_look (.kind p) rfl).bind fun _ => FileProgram.within_pure _)

theorem within_writeText (written : p.IsWritten) (here : inside (FileTree.resolve directory p))
    (text : String) : (writeText p text).Within directory inside way :=
  within_ofFile (FileProgram.within_perform ⟨written, here⟩)

theorem within_removeTree (all : ∀ rest, inside (FileTree.resolve directory p ++ rest)) :
    (removeTree p).Within directory inside way :=
  within_ofFile (FileProgram.within_perform all)

theorem within_removeIfExists (all : ∀ rest, inside (FileTree.resolve directory p ++ rest)) :
    (removeIfExists p).Within directory inside way :=
  (within_exists? p).bind fun _ => .ite (within_removeTree all) (within_pure _)

theorem within_rename (written : p'.IsWritten)
    (all : ∀ rest, inside (FileTree.resolve directory p ++ rest))
    (all' : ∀ rest, inside (FileTree.resolve directory p' ++ rest)) :
    (rename p p').Within directory inside way :=
  within_ofFile (FileProgram.within_perform ⟨written, all, all'⟩)

end Operations

/-- What an action keeps. -/
theorem Within.yields {x : Except Fault α} {w' : World} (within : a.Within w.directory inside way)
    (h : w.Proper) (yields : Yields a w x w') : w.Kept inside way w' := by
  have kept := FileProgram.Within.run within h
  rwa [yields] at kept

end FileAction

/-- What is kept up to an action is kept after it. -/
theorem World.Kept.yields {α : Type} {inside way : FilePlace → Prop} {w w₁ w₂ : World}
    {a : FileAction α} {x : Except Fault α} (kept : w.Kept inside way w₁)
    (within : a.Within w.directory inside way) (h : FileAction.Yields a w₁ x w₂) :
    w.Kept inside way w₂ := by
  rw [← kept.directory] at within
  exact kept.trans (within.yields kept.proper h)

end ProductSpec
