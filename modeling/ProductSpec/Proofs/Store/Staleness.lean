/-
  When a lock is stale, and what comes of taking it: without a fault this is decided by what is in
  its place.
-/
import ProductSpec.Proofs.File.Reading
import ProductSpec.Store.Lock

namespace ProductSpec

namespace World

/-- At a path there is something. -/
def Finds (w : World) (p : FilePath) (e : FileEntry) : Prop :=
  ∃ q, w.Places p q ∧ w.tree.get? q = some e

theorem finds_iff {w : World} {p : FilePath} {q : FilePlace} {e : FileEntry} (placed : w.Places p q) :
    w.Finds p e ↔ w.tree.get? q = some e := by
  constructor
  · rintro ⟨q', placed', found⟩
    obtain rfl := Except.ok.inj (placed'.symm.trans placed)
    exact found
  · exact fun found => ⟨q, placed, found⟩

/-- From one world to another nothing has changed but what is at a place that is no directory. -/
structure ChangedAt (w : World) (q : FilePlace) (w' : World) : Prop where
  noFault : w'.fault = none
  directory : w'.directory = w.directory
  notDirectory : w.tree.get? q ≠ some .directory
  same : ∀ q', q' ≠ q → w'.tree.get? q' = w.tree.get? q'

variable {w w₁ w₂ : World} {p : FilePath} {q : FilePlace}

theorem ChangedAt.trans (h : w.ChangedAt q w₁) (next : w₁.ChangedAt q w₂) : w.ChangedAt q w₂ where
  noFault := next.noFault
  directory := next.directory.trans h.directory
  notDirectory := h.notDirectory
  same q' other := (next.same q' other).trans (h.same q' other)

/-- The directories on the way are still there. -/
theorem ChangedAt.reaches (h : w.ChangedAt q w₁) (reaches : w.Reaches p) : w₁.Reaches p := by
  intro name isName
  obtain ⟨before, form, start, -⟩ := FileTree.exists_way_join w.directory p isName
  obtain ⟨notEmpty, noZero, found⟩ := FileTree.place_eq_ok.1 (reaches name isName)
  unfold Places
  rw [h.directory]
  refine FileTree.place_eq_ok.2 ⟨notEmpty, noZero, ?_⟩
  rw [form, start] at found ⊢
  refine FileTree.walk_of_directories isName.filled found fun ys _ isDirectory => ?_
  rw [h.same _ fun same => h.notDirectory (same ▸ isDirectory), isDirectory]

/-- A file is put at a place. -/
theorem changedAt_set (noFault : w.fault = none) (filled : q ≠ [])
    (notDirectory : w.tree.get? q ≠ some .directory) (e : FileEntry) :
    w.ChangedAt q { w with tree := w.tree.set q e } where
  noFault := noFault
  directory := rfl
  notDirectory := notDirectory
  same q' other := by rw [FileTree.get?_set filled, if_neg other]

/-- A file is taken from a place. -/
theorem changedAt_erase (noFault : w.fault = none)
    (notDirectory : w.tree.get? q ≠ some .directory) :
    w.ChangedAt q { w with tree := w.tree.erase q } where
  noFault := noFault
  directory := rfl
  notDirectory := notDirectory
  same q' other := FileTree.get?_congr (by rw [FileTree.entriesAt_erase, if_neg other])

end World

namespace Lock

open FileAction FileTree FileProgram

variable {w w' : World} {p : FilePath} {q : FilePlace} {e : FileEntry}

/-- What is in the place of a lock tells when it was taken: the first line that tells a time tells
this one. -/
def Tells (e : FileEntry) (time : Timestamp) : Prop :=
  ∃ (text : String) (modified : Int) (before : List (List Char)) (told : List Char)
    (after : List (List Char)), e = .file text.toUTF8 modified ∧
    Text.lines text.toList = before ++ ("created_at=".toList ++ told) :: after ∧
    (∀ line ∈ before, ¬ "created_at=".toList <+: line) ∧
    Timestamp.read? (String.ofList (Text.trim told)) = some time

/-- When what is in a place was last changed. A directory always changes. -/
def lastChange (now : Int) : FileEntry → Int
  | .directory => now
  | .file _ time => time

/-- The instant at which what is in the place of a lock was taken: as it tells, else when it was
last changed. -/
def TakenAt (now : Int) (e : FileEntry) (taken : Int) : Prop :=
  (∃ time, Tells e time ∧ taken = time.instant) ∨
    (∀ time, ¬ Tells e time) ∧ taken = lastChange now e

/-- What is in the place of a lock was taken more than ten minutes ago. -/
def IsStale (w : World) (e : FileEntry) : Prop :=
  ∃ taken, TakenAt w.clock e taken ∧ staleAge < (Timestamp.ofClock w.clock).instant - taken

/-- The time that is read in the place of a lock. -/
def toldTime? : FileEntry → Option Timestamp
  | .directory => none
  | .file content _ => (String.fromUTF8? content).bind takenAt?

theorem takenAt?_eq_some_iff {text : String} {time : Timestamp} :
    takenAt? text = some time ↔ ∃ before told after,
      Text.lines text.toList = before ++ ("created_at=".toList ++ told) :: after ∧
      (∀ line ∈ before, ¬ "created_at=".toList <+: line) ∧
      Timestamp.read? (String.ofList (Text.trim told)) = some time := by
  have other (line : List Char) : Text.dropStart? "created_at=".toList line = none ↔
      ¬ "created_at=".toList <+: line := by
    rw [Option.eq_none_iff_forall_ne_some]
    simp only [ne_eq, Text.dropStart?_eq_some_iff, ← not_exists]
    exact not_congr (exists_congr fun rest => eq_comm)
  rw [takenAt?, Option.bind_eq_bind, Option.bind_eq_some_iff]
  simp only [List.findSome?_eq_some_iff, Text.dropStart?_eq_some_iff, other]
  constructor
  · rintro ⟨told, ⟨before, _, after, form, rfl, unlike⟩, read⟩
    exact ⟨before, told, after, form, unlike, read⟩
  · rintro ⟨before, told, after, form, unlike, read⟩
    exact ⟨told, ⟨before, _, after, form, rfl, unlike⟩, read⟩

theorem toldTime?_eq_some_iff {time : Timestamp} : toldTime? e = some time ↔ Tells e time := by
  cases e with
  | directory => exact ⟨nofun, fun ⟨_, _, _, _, _, same, _⟩ => nomatch same⟩
  | file content modified =>
    rw [toldTime?, Option.bind_eq_some_iff]
    simp only [fromUTF8?_eq_some, takenAt?_eq_some_iff]
    constructor
    · rintro ⟨text, rfl, before, told, after, tells⟩
      exact ⟨text, modified, before, told, after, rfl, tells⟩
    · rintro ⟨text, _, before, told, after, same, tells⟩
      cases same
      exact ⟨text, rfl, before, told, after, tells⟩

/-- The instant at which what is in the place of a lock was taken, as it is read. -/
def takenInstant (now : Int) (e : FileEntry) : Int :=
  ((toldTime? e).map Timestamp.instant).getD (lastChange now e)

theorem takenAt_iff {now taken : Int} : TakenAt now e taken ↔ taken = takenInstant now e := by
  simp only [TakenAt, ← toldTime?_eq_some_iff, takenInstant]
  cases toldTime? e <;> simp

theorem isStale_iff : IsStale w e ↔
    staleAge < (Timestamp.ofClock w.clock).instant - takenInstant w.clock e := by
  simp only [IsStale, takenAt_iff, exists_eq_left]

instance (w : World) (e : FileEntry) : Decidable (IsStale w e) := decidable_of_iff' _ isStale_iff

section Found

variable (noFault : w.fault = none) (placed : w.Places p q) (found : w.tree.get? q = some e)

include noFault placed found

theorem run_toldTime : ∃ text, (FileProgram.readText p).run w = (text, w) ∧
    text.toOption.bind takenAt? = toldTime? e := by
  have read : w.answer (.read p) = (w.tree.read q, w) := by
    rw [World.answer, World.attempt_eq noFault, World.look_eq placed]
  rw [FileTree.read, find, found] at read
  cases e with
  | directory => exact ⟨_, run_readText_error read, rfl⟩
  | file content time =>
    have given : w.answer (.read p) = (.ok content, w) := read
    refine ⟨_, run_readText given, ?_⟩
    change _ = (String.fromUTF8? content).bind takenAt?
    cases String.fromUTF8? content <;> rfl

/-- Without a fault it is known whether a lock is stale. -/
theorem run_isStale : (isStale p).run w = (decide (IsStale w e), w) := by
  have modified : w.answer (.modified p) = (.ok (lastChange w.clock e), w) := by
    rw [World.answer, World.attempt_eq noFault, World.look_eq placed, FileTree.modified, find,
      found]
    cases e <;> rfl
  have instant : (instant? p).run w = (some (takenInstant w.clock e), w) := by
    obtain ⟨text, ran, told⟩ := run_toldTime noFault placed found
    rw [instant?, run_bind, ran, told, takenInstant]
    cases toldTime? e with
    | some time => rfl
    | none =>
      change (perform (.modified p) >>= _).run w = _
      rw [run_bind, run_perform, modified]
      rfl
  have same : decide (IsStale w e) =
      decide (staleAge < (Timestamp.ofClock w.clock).instant - takenInstant w.clock e) :=
    decide_eq_decide.2 isStale_iff
  rw [isStale, run_bind, instant, same]
  rfl

end Found

section Entry

variable {root : FilePath} {name : String} (noFault : w.fault = none) (reaches : w.Reaches root)
  (isName : IsPieceName name)

include noFault reaches isName

/-- A lock is created where there is nothing. -/
theorem yields_create_of_free (free : w.tree.get? (resolve w.directory root ++ [name]) = none) :
    ∃ w', Yields (create (root.join name)) w (.ok true) w' ∧
      w.ChangedAt (resolve w.directory root ++ [name]) w' := by
  have placed := reaches name isName
  have plain := FilePath.endsInSlash_join root isName
  have filled : resolve w.directory root ++ [name] ≠ [] := by simp
  obtain ⟨w₁, created, changed, found⟩ : ∃ w₁,
      w.answer (.createFile (root.join name)) = (.ok (), w₁) ∧
      w.ChangedAt (resolve w.directory root ++ [name]) w₁ ∧
      w₁.tree.get? (resolve w.directory root ++ [name]) = some (.file .empty w.clock) := by
    refine ⟨_, ?_, World.changedAt_set noFault filled (by simp [free]) (.file .empty w.clock),
      by rw [get?_set filled, if_pos rfl]⟩
    rw [World.answer, World.attempt_eq noFault, World.changeFile, plain]
    exact World.change_eq placed (by simp [FileTree.createFile, free])
  -- The line that tells when the lock was taken is appended to the empty file.
  have placed₁ := changed.reaches reaches name isName
  rw [changed.directory] at placed₁
  let line := (takenLine (.ofClock w₁.clock)).toUTF8
  obtain ⟨w₂, appended, changed₂⟩ : ∃ w₂,
      w₁.answer (.append (root.join name) line) = (.ok (), w₂) ∧
      w₁.ChangedAt (resolve w.directory root ++ [name]) w₂ := by
    refine ⟨_, ?_, World.changedAt_set changed.noFault filled (by simp [found])
      (.file (.empty ++ line) w₁.clock)⟩
    rw [World.answer, World.attempt_eq changed.noFault, World.changeFile, plain]
    exact World.change_eq placed₁ (by simp [FileTree.append, found])
  refine ⟨w₂, Yields.bind (yields_ofProgram created) ?_, changed.trans changed₂⟩
  refine Yields.bind (x := .ofClock w₁.clock) (yields_ofProgram rfl) ?_
  exact Yields.bind (yields_ofFile (x := .ok ()) appended) (yields_pure true w₂)

variable {e : FileEntry}

/-- A lock is not created where there is something. -/
theorem yields_create_of_found
    (found : w.tree.get? (resolve w.directory root ++ [name]) = some e) :
    Yields (create (root.join name)) w (.ok false) w := by
  have refused : w.answer (.createFile (root.join name)) = (.error .alreadyExists, w) := by
    rw [World.answer, World.attempt_eq noFault, World.changeFile, World.change,
      World.look_eq (reaches name isName), FilePath.endsInSlash_join root isName,
      if_neg Bool.false_ne_true, FileTree.createFile, found]
  exact Yields.bind (yields_ofProgram refused) (yields_pure false w)

/-- A directory in the place of a lock is not removed. -/
theorem yields_discard_of_directory
    (found : w.tree.get? (resolve w.directory root ++ [name]) = some .directory) :
    Yields (discard (root.join name)) w (.error (.file .isDirectory)) w := by
  have refused : w.answer (.removeFile (root.join name)) = (.error .isDirectory, w) := by
    rw [World.answer, World.attempt_eq noFault, World.change, World.look_eq (reaches name isName),
      FileTree.removeFile, find, found]
    rfl
  exact Yields.bind (yields_ofProgram refused) (yields_throw _ w)

variable {content : ByteArray} {time : Int}

/-- When a file in the place of a lock has been removed, there is nothing in its place. -/
theorem yields_discard_of_file
    (found : w.tree.get? (resolve w.directory root ++ [name]) = some (.file content time)) :
    ∃ w', Yields (discard (root.join name)) w (.ok ()) w' ∧
      w.ChangedAt (resolve w.directory root ++ [name]) w' ∧
      w'.tree.get? (resolve w.directory root ++ [name]) = none := by
  obtain ⟨w', removed, changed, free⟩ : ∃ w',
      w.answer (.removeFile (root.join name)) = (.ok (), w') ∧
      w.ChangedAt (resolve w.directory root ++ [name]) w' ∧
      w'.tree.get? (resolve w.directory root ++ [name]) = none := by
    refine ⟨_, ?_, World.changedAt_erase noFault (by simp [found]), ?_⟩
    · rw [World.answer, World.attempt_eq noFault]
      exact World.change_eq (reaches name isName) (by rw [FileTree.removeFile, find, found]; rfl)
    · exact get?_erase_self (ne_nil_of_get? found (by simp))
  exact ⟨w', Yields.bind (yields_ofProgram removed) (yields_pure () w'), changed, free⟩

/-- A lock is created in the place of a file that is removed first. -/
theorem yields_renew_of_file
    (found : w.tree.get? (resolve w.directory root ++ [name]) = some (.file content time)) :
    ∃ w', Yields (discard (root.join name) >>= fun _ => create (root.join name)) w (.ok true) w' ∧
      w.ChangedAt (resolve w.directory root ++ [name]) w' := by
  obtain ⟨w₁, discarded, changed, free⟩ := yields_discard_of_file noFault reaches isName found
  rw [← changed.directory] at free
  obtain ⟨w', created, changed'⟩ :=
    yields_create_of_free changed.noFault (changed.reaches reaches) isName free
  rw [changed.directory] at changed'
  exact ⟨w', discarded.bind created, changed.trans changed'⟩

/-- Whether a lock is taken depends on what is in its place: it is not if that is not stale, and
otherwise it is, unless what is there cannot be removed. -/
theorem yields_take : ∃ x w', Yields (take (root.join name)) w x w' ∧
    ((∃ e, w.tree.get? (resolve w.directory root ++ [name]) = some e ∧ ¬ IsStale w e) ∧
        x = .ok false ∧ w' = w ∨
      (∀ e, w.tree.get? (resolve w.directory root ++ [name]) = some e → IsStale w e) ∧
        (x = .ok true ∧ w.ChangedAt (resolve w.directory root ++ [name]) w' ∨
          ∃ reason, x = .error (.file reason))) := by
  cases found : w.tree.get? (resolve w.directory root ++ [name]) with
  | none =>
    obtain ⟨w', created, changed⟩ := yields_create_of_free noFault reaches isName found
    exact ⟨_, w', created.bind (yields_pure true w'), .inr ⟨nofun, .inl ⟨rfl, changed⟩⟩⟩
  | some e =>
    have created := yields_create_of_found noFault reaches isName found
    have asked := yields_ofProgram (run_isStale noFault (reaches name isName) found)
    by_cases stale : IsStale w e
    · have all : ∀ e', some e = some e' → IsStale w e' := fun e' same => by
        cases same
        exact stale
      rw [decide_eq_true stale] at asked
      cases e with
      | directory =>
        have failed := yields_discard_of_directory noFault reaches isName found
        exact ⟨_, w, created.bind (asked.bind failed.bind_error), .inr ⟨all, .inr ⟨_, rfl⟩⟩⟩
      | file content time =>
        obtain ⟨w', renewed, changed⟩ := yields_renew_of_file noFault reaches isName found
        exact ⟨_, w', created.bind (asked.bind renewed), .inr ⟨all, .inl ⟨rfl, changed⟩⟩⟩
    · rw [decide_eq_false stale] at asked
      exact ⟨_, w, created.bind (asked.bind (yields_pure false w)),
        .inl ⟨⟨e, rfl, stale⟩, rfl, rfl⟩⟩

end Entry

end Lock

end ProductSpec
