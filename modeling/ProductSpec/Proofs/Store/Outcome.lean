/-
  What comes of adding a release, by what is in the place of the release and in that of its lock:
  whether there is one already, whether somebody else is adding it, or else whether an operation on
  files fails.
-/
import ProductSpec.Proofs.File.Success
import ProductSpec.Proofs.Store.Entries
import ProductSpec.Proofs.Store.Lock
import ProductSpec.Proofs.Store.Staleness

namespace ProductSpec

open FileAction FileTree

namespace Lock

variable {w w' : World} {p : FilePath}

theorem reliable_create (p : FilePath) : Reliable (create p) := by
  refine reliable_asked (r := .createFile p) fun reply => ?_
  cases reply with
  | ok =>
    exact .inl <| (reliable_ofProgram _).bind fun now =>
      (reliable_append _ _).bind fun _ => reliable_pure true
  | error e =>
    by_cases known : e = .alreadyExists
    · subst known
      exact .inl (reliable_pure false)
    · refine .inr ⟨e, ?_, fun w refused => ?_⟩
      · cases e with
        | alreadyExists => exact absurd rfl known
        | _ => rfl
      · have reason : (FileRequest.createFile p).refusal? (w.answer (.createFile p)).1 = some e :=
          congrArg FileRequest.errorOf refused
        rw [World.carriesOut, reason]
        dsimp only
        rw [decide_eq_false known, Bool.false_and]

theorem reliable_discard (p : FilePath) : Reliable (discard p) := by
  refine reliable_asked (r := .removeFile p) fun reply => ?_
  cases reply with
  | ok => exact .inl (reliable_pure ())
  | error e =>
    by_cases known : e = .notFound
    · subst known
      exact .inl (reliable_pure ())
    · refine .inr ⟨e, ?_, fun w refused => ?_⟩
      · cases e with
        | notFound => exact absurd rfl known
        | _ => rfl
      · exact World.carriesOut_of_refused (congrArg FileRequest.errorOf refused) rfl rfl

theorem reliable_take (p : FilePath) : Reliable (take p) :=
  (reliable_create p).bind fun _ => .ite (reliable_pure _) <|
    (reliable_ofProgram _).bind fun _ => .ite (reliable_pure _) <|
      (reliable_discard p).bind fun _ => reliable_create p

theorem wait_error {attempts : Nat} {e : Fault} (noFault : w.fault = none)
    (h : Yields (wait attempts p) w (.error e) w') : ∃ reason, e = .file reason := by
  induction attempts generalizing w with
  | zero => exact ⟨_, Except.error.inj (h.unique (yields_throw _ w)).1⟩
  | succ attempts ih =>
    rcases h.bind_cases with ⟨_, same, failed⟩ | ⟨taken, w₁, took, onward⟩
    · cases same
      exact (reliable_take p).error noFault failed
    · cases taken with
      | true => cases (onward.unique (yields_pure () w₁)).1
      | false =>
        rcases Yields.bind_cases onward with ⟨_, -, asked⟩ | ⟨_, w₂, paused, again⟩
        · cases (asked.unique (yields_ofProgram rfl)).1
        · exact ih (paused.fault_eq_none (took.fault_eq_none noFault)) again

/-- Waiting for a lock comes to an end if every operation is carried out, as then nobody holds
it. -/
theorem reliable_wait (attempts : Nat) (p : FilePath) : Reliable (wait (attempts + 1) p) where
  error := wait_error
  ok noFault succeeds h :=
    ⟨(), wait_succeeds noFault ⟨h, FileProgram.failures_of_succeeds succeeds⟩⟩

/-- A lock that has been given back is gone. -/
theorem gone_of_release {x : Except Fault Unit} (h : Yields (release p) w x w')
    (succeeds : (release p).succeeds w = true) (e : FileEntry) : ¬ w'.Finds p e := by
  obtain ⟨reply, ran, -⟩ := h.ofFile_cases
  have answer : w.answer (.removeFile p) = (reply, w') := ran
  have carriedOut : w.carriesOut (.removeFile p) = true := by
    rw [FileAction.succeeds, release] at succeeds
    exact (Bool.and_eq_true_iff.1 succeeds).1
  obtain ⟨directory, ⟨reason, refused, -⟩ | ⟨-, effect⟩⟩ := World.answer_cases w (.removeFile p)
  · rw [World.carriesOut_of_refused refused rfl rfl] at carriedOut
    cases carriedOut
  · rw [answer] at directory effect
    rintro ⟨q, placed, found⟩
    have place := place_eq_resolve placed
    dsimp only at directory effect
    generalize w'.tree = tree at effect found
    cases effect with
    | look looks => cases looks
    | @removeFile _ q' content time placed' isThere =>
      have same : q = q' := by rw [place, directory, place_eq_resolve placed']
      rw [same, get?_erase_self (ne_nil_of_get? isThere nofun)] at found
      cases found

end Lock

namespace Store

variable {s : Store} {w w' : World}

theorem reliable_writeArtifacts (directory : FilePath) (artifacts : List Release.Artifact) :
    Reliable (writeArtifacts directory artifacts) := by
  induction artifacts with
  | nil => exact reliable_pure ()
  | cons a rest ih => exact (reliable_writeText _ _).bind fun _ => ih

theorem reliable_copyEntries (source target : FilePath) (entries : List (String × FileKind)) :
    Reliable (copyEntries source target entries) := by
  induction entries with
  | nil => exact reliable_pure ()
  | cons e rest ih =>
    obtain ⟨name, kind⟩ := e
    cases kind with
    | file => exact (reliable_copy _ _).bind fun _ => ih
    | directory => exact ih

theorem reliable_copyFiles (source : FilePath) {target : FilePath} (filled : target.pieces ≠ []) :
    Reliable (copyFiles source target) :=
  (reliable_createDirectories filled).bind fun _ =>
    (reliable_list source).bind fun _ => reliable_copyEntries source target _

theorem reliable_swapLatest (s : Store) : Reliable s.swapLatest := by
  have swap (undo : FileAction Unit) : Reliable (do
      (rename (s.file ".latest.staging") (s.file latestName)).onFailure undo
      tolerate (removeIfExists (s.file ".latest.old"))) :=
    ((reliable_rename _ _).onFailure undo).bind fun _ => reliable_tolerate _
  refine (reliable_exists? _).bind fun hadLatest => ?_
  cases hadLatest with
  | true => exact (reliable_rename _ _).bind fun _ => swap _
  | false => exact swap _

theorem reliable_replaceLatest (root : s.root.IsWritten) (source : FilePath) :
    Reliable (s.replaceLatest source) := by
  refine (Lock.reliable_wait _ _).bind fun _ => Reliable.finallyDo ?_ _
  refine (reliable_removeIfExists _).bind fun _ => (reliable_removeIfExists _).bind fun _ => ?_
  exact (reliable_copyFiles source (root.join _).filled).bind fun _ => reliable_swapLatest s

theorem reliable_write (root : s.root.IsWritten) (r : Release) : Reliable (s.write r) := by
  refine (reliable_removeIfExists _).bind fun _ => Reliable.bind (.onFailure ?_ _) fun _ => ?_
  · exact (reliable_createDirectories (root.join _).filled).bind fun _ =>
      reliable_writeArtifacts _ _
  · exact (reliable_rename _ _).bind fun _ => (reliable_replaceLatest root _).onFailure _

/-- A release whose directory is not there is written. -/
theorem addLocked_cases {products : NameMap Dataset} {tag : String} {v : Version}
    {x : Except Fault Release} (root : s.root.IsWritten) (noFault : w.fault = none)
    (checked : Version.ofCheckedTag? tag = some v) {q : FilePlace}
    (placed : w.Places (s.versionDir tag) q) (free : w.tree.get? q = none)
    (h : Yields (s.addLocked products tag) w x w') :
    (∀ e, x = .error e → ∃ reason, e = .file reason) ∧
      ((s.addLocked products tag).succeeds w = true → ∃ r, x = .ok r) := by
  let r : Release := ⟨tag, v, .ofClock w.clock, products, JsonSchema.ofProducts products⟩
  have made : Release.make? tag products (.ofClock w.clock) = some r :=
    Release.make?_eq_some.2 ⟨v, checked, rfl⟩
  have asked : Yields (exists? (s.versionDir tag)) w (.ok false) w := by
    have asked := yields_exists? placed
    rwa [free] at asked
  have told : Yields (ofProgram (.perform .now)) w (.ok (.ofClock w.clock)) w :=
    yields_ofProgram rfl
  have given : Yields (ofOption (.invalidTag tag)
      (Release.make? tag products (.ofClock w.clock))) w (.ok r) w := by
    rw [made]
    exact yields_ofOption _ (some r) w
  have reliable : Reliable (do s.write r; return r : FileAction Release) :=
    (reliable_write root r).bind fun _ => reliable_pure r
  obtain ⟨y, w₁, run⟩ : ∃ y w₁, Yields (do s.write r; return r : FileAction Release) w y w₁ :=
    ⟨_, _, yields_run _ w⟩
  obtain ⟨rfl, rfl⟩ := h.unique (asked.bind (told.bind (given.bind run)))
  refine ⟨fun e failed => reliable.error noFault (failed ▸ run), fun succeeds => ?_⟩
  rw [addLocked, asked.succeeds_bind] at succeeds
  have afterAsked := (Bool.and_eq_true_iff.1 succeeds).2
  change FileAction.succeeds (ofProgram (.perform .now) >>= _) w = true at afterAsked
  rw [told.succeeds_bind] at afterAsked
  have afterTold := (Bool.and_eq_true_iff.1 afterAsked).2
  rw [given.succeeds_bind] at afterTold
  exact reliable.ok noFault (Bool.and_eq_true_iff.1 afterTold).2 run

/-- A release that is written under the lock of its tag: it fails with a file error only, and if
every operation is carried out it does not fail and the lock is gone. -/
theorem released_cases {products : NameMap Dataset} {tag : String} {v : Version} {lock : FilePath}
    {x : Except Fault Release} (root : s.root.IsWritten) (noFault : w.fault = none)
    (checked : Version.ofCheckedTag? tag = some v) {q : FilePlace}
    (placed : w.Places (s.versionDir tag) q) (free : w.tree.get? q = none)
    (h : Yields ((s.addLocked products tag).finallyDo (Lock.release lock)) w x w') :
    (∀ e, x = .error e → ∃ reason, e = .file reason) ∧
      (((s.addLocked products tag).finallyDo (Lock.release lock)).succeeds w = true →
        (∃ r, x = .ok r) ∧ ∀ e, ¬ w'.Finds lock e) := by
  obtain ⟨w₁, z, added, released⟩ := h.finallyDo_cases
  obtain ⟨error, ok⟩ := addLocked_cases root noFault checked placed free added
  refine ⟨error, fun succeeds => ?_⟩
  rw [added.succeeds_finallyDo, Bool.and_eq_true] at succeeds
  exact ⟨ok succeeds.1, Lock.gone_of_release released succeeds.2⟩

section Adding

variable {products : NameMap Dataset} {tag : String} {v : Version} {x : Except Fault Release}
  (written : s.root.IsWritten) (noFault : w.fault = none)

theorem placed_versionDir (reaches : w.Reaches s.root)
    (checked : Version.ofCheckedTag? tag = some v) :
    w.Places (s.versionDir tag) (s.entry w.directory (Version.dirName tag)) := by
  rw [versionDir_of_checked s checked]
  exact reaches _ (isPieceName_dirName (Version.ofTag?_of_ofCheckedTag? checked))

include written noFault

/-- A release that is not there: somebody else holds the lock of its tag, or the release is written
under the lock. -/
theorem lockAndAdd_cases (reaches : w.Reaches s.root)
    (checked : Version.ofCheckedTag? tag = some v)
    (free : w.tree.get? (s.entry w.directory (Version.dirName tag)) = none)
    (h : Yields (s.lockAndAdd products tag) w x w') :
    (∃ e, w.Finds (s.lockPath tag) e ∧ ¬ Lock.IsStale w e) ∧
        x = .error (.locked tag (s.lockPath tag).text) ∧ w' = w ∨
      (∀ e, w.Finds (s.lockPath tag) e → Lock.IsStale w e) ∧
        (∀ e, x = .error e → ∃ reason, e = .file reason) ∧
        ((s.lockAndAdd products tag).succeeds w = true →
          (∃ r, x = .ok r) ∧ ∀ e, ¬ w'.Finds (s.lockPath tag) e) := by
  have tagged := Version.ofTag?_of_ofCheckedTag? checked
  obtain ⟨held, hidden, lockPath, unlike⟩ : ∃ held, IsPieceName held ∧
      s.lockPath tag = s.root.join held ∧ Version.dirName tag ≠ held :=
    ⟨_, isPieceName_lock tagged, rfl, dirName_ne_hidden tagged (Version.dirName tag) ".lock"⟩
  unfold lockAndAdd at h ⊢
  rw [lockPath] at h ⊢
  simp only [World.finds_iff (reaches held hidden)]
  obtain ⟨taken, w₁, took, ⟨live, rfl, rfl⟩ | ⟨stale, outcome⟩⟩ :=
    Lock.yields_take noFault reaches hidden
  · have asked := yields_exists? (placed_versionDir reaches checked)
    rw [free] at asked
    obtain ⟨rfl, rfl⟩ := h.unique
      (took.bind (asked.bind (yields_throw (.locked tag (s.root.join held).text) w₁)))
    exact .inl ⟨live, rfl, rfl⟩
  · refine .inr ⟨stale, ?_⟩
    rcases outcome with ⟨rfl, changed⟩ | ⟨reason, rfl⟩
    · have placed := placed_versionDir (changed.reaches reaches) checked
      have still : w₁.tree.get? (s.entry w₁.directory (Version.dirName tag)) = none := by
        rw [changed.directory, changed.same _ (by simp [entry, unlike]), free]
      obtain ⟨y, w₂, run⟩ : ∃ y w₂, Yields
          ((s.addLocked products tag).finallyDo (Lock.release (s.root.join held))) w₁ y w₂ :=
        ⟨_, _, yields_run _ w₁⟩
      obtain ⟨rfl, rfl⟩ := h.unique (took.bind run)
      obtain ⟨error, ok⟩ := released_cases written changed.noFault checked placed still run
      rw [took.succeeds_bind]
      exact ⟨error, fun succeeds => ok (Bool.and_eq_true_iff.1 succeeds).2⟩
    · obtain ⟨rfl, rfl⟩ := h.unique took.bind_error
      refine ⟨fun e same => ⟨reason, (Except.error.inj same).symm⟩, fun succeeds => ?_⟩
      rw [took.succeeds_bind_error] at succeeds
      obtain ⟨r, made⟩ := (Lock.reliable_take _).ok noFault succeeds took
      cases made

/-- The three ways in which adding a release goes: there is one of the tag already, somebody else
holds the lock of the tag, or the release is written under the lock. -/
theorem freeze_cases (root : w.LeadsToDirectory s.root)
    (checked : Version.ofCheckedTag? tag = some v)
    (h : Yields (s.freeze products tag) w x w') :
    (∃ e, w.Finds (s.versionDir tag) e) ∧ x = .error (.versionExists tag) ∧ w' = w ∨
      (¬ ∃ e, w.Finds (s.versionDir tag) e) ∧
        ((∃ e, w.Finds (s.lockPath tag) e ∧ ¬ Lock.IsStale w e) ∧
            x = .error (.locked tag (s.lockPath tag).text) ∧ w' = w ∨
          (∀ e, w.Finds (s.lockPath tag) e → Lock.IsStale w e) ∧
            (∀ e, x = .error e → ∃ reason, e = .file reason) ∧
            ((s.freeze products tag).succeeds w = true →
              (∃ r, x = .ok r) ∧ ∀ e, ¬ w'.Finds (s.lockPath tag) e)) := by
  have reaches := root.reaches
  have target := placed_versionDir reaches checked
  have created : Yields (createDirectories s.root) w (.ok ()) w := by
    obtain ⟨_, placed, directory⟩ := root
    exact yields_createDirectories noFault written.filled placed directory
  have asked := yields_exists? target
  rw [freeze_eq s products checked] at h ⊢
  simp only [World.finds_iff target]
  cases found : w.tree.get? (s.entry w.directory (Version.dirName tag)) with
  | some e =>
    rw [found] at asked
    obtain ⟨rfl, rfl⟩ := h.unique (created.bind (asked.bind (yields_throw (.versionExists tag) w)))
    exact .inl ⟨⟨e, rfl⟩, rfl, rfl⟩
  | none =>
    rw [found] at asked
    obtain ⟨y, w₁, run⟩ : ∃ y w₁, Yields (s.lockAndAdd products tag) w y w₁ :=
      ⟨_, _, yields_run _ w⟩
    obtain ⟨rfl, rfl⟩ := h.unique (created.bind (asked.bind run))
    refine .inr ⟨by simp, ?_⟩
    rw [created.succeeds_bind, asked.succeeds_bind]
    change _ ∨ _ ∧ _ ∧ ((_ && (_ && (s.lockAndAdd products tag).succeeds w)) = true → _)
    simp only [Bool.and_eq_true]
    exact (lockAndAdd_cases written noFault reaches checked found run).imp_right
      fun ⟨stale, error, ok⟩ => ⟨stale, error, fun succeeds => ok succeeds.2.2⟩

end Adding

/-- What comes of adding a release to a store whose directory exists. That there is a release of
the tag already is told just where something is in its place. That somebody else is adding it is
told just where nothing is, but something that is not stale is in the place of the lock. In both
cases everything stays as it is. Otherwise the release is added and the lock is gone, if every
operation on files is carried out; and if not, that is what is told. -/
theorem freeze_outcome {root : String} {options : StoreOptions} {products : NameMap Dataset}
    {tag : String} {v : Version} {w w' : World} {result : Except Fault Release}
    (noFault : w.fault = none) (rootExists : w.LeadsToDirectory root)
    (checked : Version.ofCheckedTag? tag = some v)
    (h : Yields (freeze ⟨root, options⟩ products tag) w result w') :
    let s : Store := ⟨root, options⟩
    let lock := s.lockPath tag
    (result = .error (.versionExists tag) ↔ ∃ e, w.Finds (s.versionDir tag) e) ∧
    (result = .error (.locked tag lock.text) ↔
      (¬ ∃ e, w.Finds (s.versionDir tag) e) ∧ ∃ e, w.Finds lock e ∧ ¬ Lock.IsStale w e) ∧
    (result = .error (.versionExists tag) ∨ result = .error (.locked tag lock.text) → w' = w) ∧
    ((¬ ∃ e, w.Finds (s.versionDir tag) e) → (∀ e, w.Finds lock e → Lock.IsStale w e) →
      (∀ e, result = .error e → ∃ reason, e = .file reason) ∧
      ((s.freeze products tag).succeeds w = true →
        (∃ r, result = .ok r) ∧ ∀ e, ¬ w'.Finds lock e)) := by
  intro s lock
  have written : s.root.IsWritten := FilePath.isWritten_ofText root
  rcases freeze_cases written noFault rootExists checked h with
    ⟨taken, rfl, rfl⟩ | ⟨free, ⟨⟨e, found, live⟩, rfl, rfl⟩ | ⟨stale, error, ok⟩⟩
  · exact ⟨iff_of_true rfl taken, iff_of_false (by simp) fun both => both.1 taken, fun _ => rfl,
      fun free => absurd taken free⟩
  · exact ⟨iff_of_false (by simp) free, iff_of_true rfl ⟨free, e, found, live⟩, fun _ => rfl,
      fun _ stale => absurd (stale e found) live⟩
  · have notTaken : result ≠ .error (.versionExists tag) := fun same => by
      obtain ⟨_, made⟩ := error _ same
      cases made
    have notHeld : result ≠ .error (.locked tag lock.text) := fun same => by
      obtain ⟨_, made⟩ := error _ same
      cases made
    exact ⟨iff_of_false notTaken free,
      iff_of_false notHeld fun ⟨_, e, found, live⟩ => live (stale e found),
      fun refused => (refused.elim notTaken notHeld).elim, fun _ _ => ⟨error, ok⟩⟩

/-- A store in which only the lock of a release has been left, the time being given. -/
def leftLock (clock : Int) : World where
  tree := ⟨[(["products"], .directory),
    (["products", ".v2.0.0.lock"], .file "pid=7\ncreated_at=1970-01-01T00:00:00Z\n".toUTF8 0)]⟩
  directory := []
  clock
  output := ""
  fault := none

/-- A lock that was taken ten minutes ago is respected, and an older one is not. -/
theorem freeze_outcome_leftLock :
    Yields (freeze ⟨"products", ⟨.compact, false⟩⟩ ∅ "2.0.0") (leftLock 600000000000)
      (.error (.locked "2.0.0" "products/.v2.0.0.lock")) (leftLock 600000000000) ∧
    ∃ r w', Yields (freeze ⟨"products", ⟨.compact, false⟩⟩ ∅ "2.0.0") (leftLock 600000000001)
        (.ok r) w' ∧ ∀ e, ¬ w'.Finds "products/.v2.0.0.lock" e := by
  let s : Store := ⟨"products", ⟨.compact, false⟩⟩
  have rootExists (clock : Int) : (leftLock clock).LeadsToDirectory "products" :=
    ⟨["products"], rfl, rfl⟩
  have checked : Version.ofCheckedTag? "2.0.0" = some ⟨2, 0, 0, [], []⟩ := by decide +kernel
  have target : (leftLock 0).tree.place [] (s.versionDir "2.0.0") = .ok ["products", "v2.0.0"] := by
    decide +kernel
  have lock : (leftLock 0).tree.place [] (s.lockPath "2.0.0") =
      .ok ["products", ".v2.0.0.lock"] := by decide +kernel
  have free (clock : Int) : ¬ ∃ e, (leftLock clock).Finds (s.versionDir "2.0.0") e := by
    rintro ⟨e, found⟩
    cases (World.finds_iff target).1 found
  have held (clock : Int) {e : FileEntry} : (leftLock clock).Finds (s.lockPath "2.0.0") e ↔
      e = .file "pid=7\ncreated_at=1970-01-01T00:00:00Z\n".toUTF8 0 :=
    (World.finds_iff lock).trans (Option.some_inj.trans eq_comm)
  have text : (s.lockPath "2.0.0").text = "products/.v2.0.0.lock" := by decide +kernel
  constructor
  · have h := yields_run (freeze s ∅ "2.0.0") (leftLock 600000000000)
    obtain ⟨-, locked, same, -⟩ := freeze_outcome rfl (rootExists _) checked h
    have told := locked.2 ⟨free _, _, (held _).2 rfl, by decide +kernel⟩
    rw [told, same (.inr told)] at h
    exact text ▸ h
  · have h := yields_run (freeze s ∅ "2.0.0") (leftLock 600000000001)
    obtain ⟨-, -, -, added⟩ := freeze_outcome rfl (rootExists _) checked h
    obtain ⟨-, ok⟩ := added (free _) fun e found => by
      rw [(held _).1 found]
      decide +kernel
    obtain ⟨⟨r, made⟩, gone⟩ := ok (by decide +kernel)
    rw [made] at h
    exact ⟨r, _, h, gone⟩

end Store

end ProductSpec
