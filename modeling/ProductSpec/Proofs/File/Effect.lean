/-
  What one operation makes of a file tree. It is refused, and then nothing changes, or it has the
  effect that its kind of operation has.
-/
import ProductSpec.Proofs.File.Action
import ProductSpec.Proofs.Outcome

namespace ProductSpec

namespace FileRequest

/-- The error of a reply that may be one. -/
def errorOf {α : Type} : Except FileError α → Option FileError
  | .error e => some e
  | .ok _ => none

/-- Why an operation was refused, if it was. -/
def refusal? : (r : FileRequest) → r.Reply → Option FileError
  | .now, _ | .kind _, _ | .pause _, _ | .print _, _ => none
  | .read _, reply => errorOf reply
  | .list _, reply => errorOf reply
  | .modified _, reply => errorOf reply
  | .canonical _, reply => errorOf reply
  | .createDirectory _, reply => errorOf reply
  | .createFile _, reply => errorOf reply
  | .write _ _, reply => errorOf reply
  | .append _ _, reply => errorOf reply
  | .copy _ _, reply => errorOf reply
  | .rename _ _, reply => errorOf reply
  | .removeFile _, reply => errorOf reply
  | .removeTree _, reply => errorOf reply

/-- Whether an operation never changes a file tree. -/
def onlyLooks : FileRequest → Bool
  | now | kind _ | read _ | list _ | modified _ | canonical _ | pause _ | print _ => true
  | createDirectory _ | createFile _ | write _ _ | append _ _ | copy _ _ | rename _ _ |
    removeFile _ | removeTree _ => false

end FileRequest

namespace FileTree

variable {t t' : FileTree} {q q' : FilePlace} {content : ByteArray} {now : Int}

theorem find_eq_ok {e : FileEntry} : t.find q = .ok e ↔ t.get? q = some e := by
  unfold find
  cases t.get? q <;> simp

theorem createDirectory_eq_ok :
    t.createDirectory q = .ok t' ↔ t.get? q = none ∧ t.set q .directory = t' := by
  unfold createDirectory
  cases t.get? q <;> simp

theorem createFile_eq_ok :
    t.createFile q now = .ok t' ↔ t.get? q = none ∧ t.set q (.file .empty now) = t' := by
  unfold createFile
  cases t.get? q <;> simp

theorem write_eq_ok :
    t.write q content now = .ok t' ↔
      t.get? q ≠ some .directory ∧ t.set q (.file content now) = t' := by
  unfold write
  split
  · next found => simp [found]
  · next other => exact ⟨fun h => ⟨other, Except.ok.inj h⟩, fun h => congrArg Except.ok h.2⟩

theorem of_append (h : t.append q content now = .ok t') :
    t.get? q ≠ some .directory ∧ ∃ all, t.set q (.file all now) = t' := by
  unfold append at h
  split at h
  · cases h
  · next found => exact ⟨by simp [found], _, Except.ok.inj h⟩
  · next free => exact ⟨by simp [free], _, Except.ok.inj h⟩

theorem of_copy (h : t.copy q q' now = .ok t') :
    ∃ content time, t.get? q = some (.file content time) ∧ t.write q' content now = .ok t' := by
  obtain ⟨content, read, made⟩ := bind_eq_ok.1 h
  obtain ⟨e, found, given⟩ := bind_eq_ok.1 read
  rw [find_eq_ok] at found
  cases e with
  | directory => cases given
  | file content' time =>
    cases given
    exact ⟨_, time, found, made⟩

theorem of_rename (h : t.rename q q' = .ok t') :
    ∃ e, t.get? q = some e ∧ (q = q' ∧ t = t' ∨
      ¬ q <+: q' ∧ t.checkTarget e q' = .ok () ∧ (t.erase q').move q q' = t') := by
  obtain ⟨e, found, h⟩ := bind_eq_ok.1 h
  refine ⟨e, find_eq_ok.1 found, ?_⟩
  by_cases same : q = q'
  · rw [if_pos same] at h
    exact .inl ⟨same, Except.ok.inj h⟩
  · rw [if_neg same] at h
    by_cases below : q <+: q'
    · rw [if_pos (List.isPrefixOf_iff_prefix.2 below)] at h
      cases h
    · rw [if_neg fun inside => below (List.isPrefixOf_iff_prefix.1 inside)] at h
      obtain ⟨⟨⟩, checked, h⟩ := bind_eq_ok.1 h
      exact .inr ⟨below, checked, Except.ok.inj h⟩

theorem of_removeFile (h : t.removeFile q = .ok t') :
    ∃ content time, t.get? q = some (.file content time) ∧ t.erase q = t' := by
  obtain ⟨e, found, h⟩ := bind_eq_ok.1 h
  rw [find_eq_ok] at found
  cases e with
  | directory => cases h
  | file content time => exact ⟨content, time, found, Except.ok.inj h⟩

theorem removeTree_eq_ok :
    t.removeTree q = .ok t' ↔ t.get? q = some .directory ∧ t.eraseBelow q = t' := by
  unfold removeTree find
  cases t.get? q with
  | none => exact ⟨nofun, nofun⟩
  | some e =>
    cases e with
    | directory => exact ⟨fun h => ⟨rfl, Except.ok.inj h⟩, fun h => congrArg Except.ok h.2⟩
    | file => exact ⟨nofun, nofun⟩

end FileTree

namespace World

/-- A path names a place. -/
def Places (w : World) (p : FilePath) (q : FilePlace) : Prop :=
  w.tree.place w.directory p = .ok q

/-- What an operation that is not refused makes of the file tree. -/
inductive Effect (w : World) : FileRequest → FileTree → Prop
  | look {r} : r.onlyLooks = true → Effect w r w.tree
  | createDirectory {p q} : w.Places p q → w.tree.get? q = none →
      Effect w (.createDirectory p) (w.tree.set q .directory)
  | createFile {p q} : w.Places p q → w.tree.get? q = none →
      Effect w (.createFile p) (w.tree.set q (.file .empty w.clock))
  | write {p q content} : w.Places p q → w.tree.get? q ≠ some .directory →
      Effect w (.write p content) (w.tree.set q (.file content w.clock))
  | append {p q content all} : w.Places p q → w.tree.get? q ≠ some .directory →
      Effect w (.append p content) (w.tree.set q (.file all w.clock))
  | copy {p p' q q' content time} : w.Places p q → w.Places p' q' →
      w.tree.get? q = some (.file content time) → w.tree.get? q' ≠ some .directory →
      Effect w (.copy p p') (w.tree.set q' (.file content w.clock))
  | stay {p p' q} : w.Places p q → w.Places p' q → Effect w (.rename p p') w.tree
  | rename {p p' q q' e} : w.Places p q → w.Places p' q' → w.tree.get? q = some e →
      ¬ q <+: q' → w.tree.checkTarget e q' = .ok () →
      Effect w (.rename p p') ((w.tree.erase q').move q q')
  | removeFile {p q content time} : w.Places p q → w.tree.get? q = some (.file content time) →
      Effect w (.removeFile p) (w.tree.erase q)
  | removeTree {p q} : w.Places p q → w.tree.get? q = some .directory →
      Effect w (.removeTree p) (w.tree.eraseBelow q)

variable {α : Type} {w : World} {p : FilePath}

/-- An operation fails because of the fault, or it is carried out while the fault stays away. -/
theorem attempt_cases (w : World) (f : World → Except FileError α × World) :
    (∃ e, w.attempt f = (.error e, { w with fault := none })) ∨
      ∃ fault, w.attempt f = f { w with fault } := by
  obtain ⟨tree, directory, clock, output, fault⟩ := w
  match fault with
  | none => exact .inr ⟨none, rfl⟩
  | some (0, e) => exact .inl ⟨e, rfl⟩
  | some (n + 1, e) => exact .inr ⟨some (n, e), rfl⟩

theorem change_cases (w : World) (p : FilePath) (f : FilePlace → Except FileError FileTree) :
    (∃ e, w.change p f = (.error e, w)) ∨
      ∃ q tree, w.Places p q ∧ f q = .ok tree ∧ w.change p f = (.ok (), { w with tree }) := by
  unfold change
  cases looked : w.look p f with
  | error e => exact .inl ⟨e, rfl⟩
  | ok tree =>
    obtain ⟨q, placed, made⟩ := bind_eq_ok.1 looked
    exact .inr ⟨q, tree, placed, made, rfl⟩

/-- An operation that looks leaves everything but the fault as it is. -/
theorem attempt_look (f : World → Except FileError α) :
    (w.attempt fun w => (f w, w)).2.directory = w.directory ∧
      (w.attempt fun w => (f w, w)).2.tree = w.tree := by
  rcases attempt_cases w fun w => (f w, w) with ⟨e, h⟩ | ⟨fault, h⟩ <;>
  · rw [h]
    exact ⟨rfl, rfl⟩

/-- What is refused under some condition has been done only if the condition does not hold. -/
theorem made_of_unless {c : Prop} [Decidable c] {e : FileError} {x : Except FileError FileTree}
    {tree : FileTree} (h : (if c then .error e else x) = .ok tree) : x = .ok tree := by
  split at h
  · cases h
  · exact h

/-- The outcome of an operation that changes the tree: it is refused, or it is carried out at the
place of its path. -/
theorem attempt_change {f : World → FilePlace → Except FileError FileTree}
    (h : ∀ fault, f { w with fault } = f w) {effect : FileTree → Prop}
    (carriedOut : ∀ q tree, w.Places p q → f w q = .ok tree → effect tree) :
    (w.attempt fun w => w.change p (f w)).2.directory = w.directory ∧
      ((∃ e, FileRequest.errorOf (w.attempt fun w => w.change p (f w)).1 = some e ∧
        (w.attempt fun w => w.change p (f w)).2.tree = w.tree) ∨
      FileRequest.errorOf (w.attempt fun w => w.change p (f w)).1 = none ∧
        effect (w.attempt fun w => w.change p (f w)).2.tree) := by
  rcases attempt_cases w fun w => w.change p (f w) with ⟨e, outcome⟩ | ⟨fault, outcome⟩
  · rw [outcome]
    exact ⟨rfl, .inl ⟨e, rfl, rfl⟩⟩
  · rw [outcome, h]
    rcases change_cases { w with fault } p (f w) with ⟨e, change⟩ | ⟨q, tree, placed, made, change⟩
    · rw [change]
      exact ⟨rfl, .inl ⟨e, rfl, rfl⟩⟩
    · rw [change]
      exact ⟨rfl, .inr ⟨rfl, carriedOut q tree placed made⟩⟩

/-- Every operation is refused and leaves the tree as it is, or it has its effect. -/
theorem answer_cases (w : World) (r : FileRequest) :
    (w.answer r).2.directory = w.directory ∧
      ((∃ e, r.refusal? (w.answer r).1 = some e ∧ (w.answer r).2.tree = w.tree) ∨
      r.refusal? (w.answer r).1 = none ∧ w.Effect r (w.answer r).2.tree) := by
  have looking (h : r.onlyLooks = true) (kept : (w.answer r).2.directory = w.directory ∧
      (w.answer r).2.tree = w.tree) : (w.answer r).2.directory = w.directory ∧
      ((∃ e, r.refusal? (w.answer r).1 = some e ∧ (w.answer r).2.tree = w.tree) ∨
      r.refusal? (w.answer r).1 = none ∧ w.Effect r (w.answer r).2.tree) := by
    refine ⟨kept.1, ?_⟩
    rw [kept.2]
    cases r.refusal? (w.answer r).1 with
    | some e => exact .inl ⟨e, rfl, rfl⟩
    | none => exact .inr ⟨rfl, .look h⟩
  cases r with
  | now | kind | pause | print => exact looking rfl ⟨rfl, rfl⟩
  | read | list | modified | canonical => exact looking rfl (attempt_look _)
  | createDirectory p =>
    refine attempt_change (fun _ => rfl) fun q tree placed made => ?_
    obtain ⟨free, rfl⟩ := FileTree.createDirectory_eq_ok.1 made
    exact .createDirectory placed free
  | createFile p =>
    refine attempt_change (fun _ => rfl) fun q tree placed made => ?_
    obtain ⟨free, rfl⟩ := FileTree.createFile_eq_ok.1 (made_of_unless made)
    exact .createFile placed free
  | write p content =>
    refine attempt_change (fun _ => rfl) fun q tree placed made => ?_
    obtain ⟨notDirectory, rfl⟩ := FileTree.write_eq_ok.1 (made_of_unless made)
    exact .write placed notDirectory
  | append p content =>
    refine attempt_change (fun _ => rfl) fun q tree placed made => ?_
    obtain ⟨notDirectory, all, rfl⟩ := FileTree.of_append (made_of_unless made)
    exact .append placed notDirectory
  | copy p p' =>
    refine attempt_change (fun _ => rfl) fun q tree placed made => ?_
    obtain ⟨q', placed', made⟩ := bind_eq_ok.1 made
    obtain ⟨content, time, found, made⟩ := FileTree.of_copy (made_of_unless made)
    obtain ⟨notDirectory, rfl⟩ := FileTree.write_eq_ok.1 made
    exact .copy placed placed' found notDirectory
  | rename p p' =>
    refine attempt_change (fun _ => rfl) fun q tree placed made => ?_
    obtain ⟨q', placed', made⟩ := bind_eq_ok.1 made
    obtain ⟨e, found, ⟨rfl, rfl⟩ | ⟨apart, checked, rfl⟩⟩ := FileTree.of_rename made
    · exact .stay placed placed'
    · exact .rename placed placed' found apart checked
  | removeFile p =>
    refine attempt_change (fun _ => rfl) fun q tree placed made => ?_
    obtain ⟨content, time, found, rfl⟩ := FileTree.of_removeFile made
    exact .removeFile placed found
  | removeTree p =>
    refine attempt_change (fun _ => rfl) fun q tree placed made => ?_
    obtain ⟨found, rfl⟩ := FileTree.removeTree_eq_ok.1 made
    exact .removeTree placed found

/-- What an operation that is not refused makes of the tree. -/
theorem effect_answer {r : FileRequest} (h : r.refusal? (w.answer r).1 = none) :
    w.Effect r (w.answer r).2.tree := by
  obtain ⟨-, ⟨e, refused, -⟩ | ⟨-, effect⟩⟩ := answer_cases w r
  · cases h.symm.trans refused
  · exact effect

end World

/-- No program goes to another directory. -/
theorem FileProgram.directory_run {α : Type} (p : FileProgram α) (w : World) :
    (p.run w).2.directory = w.directory := by
  induction p generalizing w with
  | done => rfl
  | ask r next ih => exact (ih _ _).trans (World.answer_cases w r).1

theorem FileAction.Yields.directory {α : Type} {a : FileAction α} {x : Except Fault α}
    {w w' : World} (h : Yields a w x w') : w'.directory = w.directory := by
  have same := FileProgram.directory_run (ExceptT.run a) w
  rwa [h] at same

end ProductSpec
