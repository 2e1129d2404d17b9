/-
  Making a directory the newest release. A copy of it takes the place of the former newest release,
  which comes back if the copy cannot take it.
-/
import ProductSpec.Proofs.Store.Entries
import ProductSpec.Proofs.Store.Lock

namespace ProductSpec.Store

open FileAction FileTree

variable {s : Store} {d : FilePlace} {w w' : World} {a : String} {n : Nat}
  {files : String → Option ByteArray}

namespace Ready

variable (ready : s.Ready d w)

include ready

/-- The new copy takes the place of the newest release, or that one is as it was, if it is so after
what is done when the copy cannot take its place. -/
theorem rename_latest {t : FileTree} {x : Except Fault Unit} (undo : FileAction Unit) (few : n ≤ 1)
    (undone : ∀ {w₁ w₂ z}, s.Ready d w₁ → w₁.tree = w.tree → Suffers undo w₁ z w₂ 0 →
      t.SameBranch w₂.tree (s.entry d latestName))
    (h : Suffers (do
      (rename (s.file ".latest.staging") (s.file latestName)).onFailure undo
      tolerate (removeIfExists (s.file ".latest.old"))) w x w' n) :
    (x = .ok () ∧ ∀ rest, w'.tree.entriesAt (s.entry d latestName ++ rest) =
      w.tree.entriesAt (s.entry d ".latest.staging" ++ rest)) ∨
    (∃ e, x = .error e) ∧ 1 ≤ n ∧ t.SameBranch w'.tree (s.entry d latestName) := by
  have unlike : ".latest.staging" ≠ latestName := by decide
  rcases h.bind_cases with ⟨e, rfl, failed⟩ | ⟨_, w₁, n₁, n₂, renamed, cleaning, rfl⟩
  · rcases failed.onFailure_cases with ⟨_, made, -⟩ | ⟨e', w₁, z, n₁, n₂, -, refused, undoing, rfl⟩
    · cases made
    · rcases ready.rename_cases isPieceName_latestStaging isPieceName_latest unlike refused with
        ⟨made, -⟩ | ⟨-, rfl, same⟩
      · cases made
      · have ready₁ := (ready.touches_rename isPieceName_latestStaging isPieceName_latest
          refused).ready
        obtain rfl : n₂ = 0 := by omega
        exact .inr ⟨⟨e, rfl⟩, by omega, undone ready₁ same undoing⟩
  · rcases renamed.onFailure_cases with ⟨_, -, renamed⟩ | ⟨_, _, _, _, _, made, -⟩
    · rcases ready.rename_cases isPieceName_latestStaging isPieceName_latest unlike renamed with
        ⟨-, -, moved, -⟩ | ⟨⟨_, made⟩, -⟩
      · have ready₁ := (ready.touches_rename isPieceName_latestStaging isPieceName_latest
          renamed).ready
        obtain ⟨rfl, z, cleaned⟩ := cleaning.tolerate_cases
        have kept := (ready₁.touches_removeIfExists isPieceName_latestOld cleaned).same latestName
          (by decide)
        exact .inl ⟨rfl, fun rest => (kept rest).trans (moved rest)⟩
      · cases made
    · cases made

/-- Without failures the former newest release is put back from where it waits. -/
theorem restore_latest {t : FileTree} {x : Except Fault Unit}
    (waits : ∀ rest, w.tree.entriesAt (s.entry d ".latest.old" ++ rest) =
      t.entriesAt (s.entry d latestName ++ rest))
    (h : Suffers (do
      tolerate (rename (s.file ".latest.old") (s.file latestName))
      removeTree (s.file ".latest.staging")) w x w' 0) :
    t.SameBranch w'.tree (s.entry d latestName) := by
  rcases h.bind_cases with ⟨e, -, failed⟩ | ⟨_, w₁, n₁, n₂, tolerated, removed, none⟩
  · cases failed.tolerate_cases.1
  obtain ⟨rfl, rfl⟩ := Nat.add_eq_zero_iff.1 none.symm
  obtain ⟨-, z, restored⟩ := tolerated.tolerate_cases
  have ready₁ := (ready.touches_rename isPieceName_latestOld isPieceName_latest restored).ready
  have kept := (ready₁.touches_removeTree isPieceName_latestStaging removed).same latestName
    (by decide)
  rcases ready.rename_cases isPieceName_latestOld isPieceName_latest (by decide) restored with
    ⟨-, -, moved, -⟩ | ⟨-, one, -⟩
  · exact SameBranch.trans (fun rest => (moved rest).trans (waits rest)) kept
  · cases one

theorem swapLatest_cases {x : Except Fault Unit} (few : n ≤ 1)
    (h : Suffers s.swapLatest w x w' n) :
    (x = .ok () ∧ ∀ rest, w'.tree.entriesAt (s.entry d latestName ++ rest) =
      w.tree.entriesAt (s.entry d ".latest.staging" ++ rest)) ∨
    (∃ e, x = .error e) ∧ 1 ≤ n ∧ w.tree.SameBranch w'.tree (s.entry d latestName) := by
  obtain ⟨hadLatest, onward⟩ := h.exists?_bind
  cases hadLatest with
  | false =>
    refine ready.rename_latest (removeTree (s.file ".latest.staging")) few
      (fun {w₁ w₂ z} ready₁ same undoing => ?_) onward
    have kept := (ready₁.touches_removeTree isPieceName_latestStaging undoing).same latestName
      (by decide)
    rwa [same] at kept
  | true =>
    rcases onward.bind_cases with ⟨e, rfl, failed⟩ | ⟨_, w₂, n₃, n₄, aside, swapping, rfl⟩
    · rcases ready.rename_cases isPieceName_latest isPieceName_latestOld (by decide) failed with
        ⟨made, -⟩ | ⟨made, rfl, same⟩
      · cases made
      · exact .inr ⟨made, le_refl 1, same ▸ .refl _ _⟩
    · rcases ready.rename_cases isPieceName_latest isPieceName_latestOld (by decide) aside with
        ⟨-, rfl, moved, -⟩ | ⟨⟨_, made⟩, -⟩
      · have put := ready.touches_rename isPieceName_latest isPieceName_latestOld aside
        rw [Nat.zero_add] at few ⊢
        rcases put.ready.rename_latest _ few (fun ready₃ same => ready₃.restore_latest
          fun rest => by rw [same, moved rest]) swapping with ⟨made, taken⟩ | failed
        · refine .inl ⟨made, fun rest => (taken rest).trans ?_⟩
          exact put.same ".latest.staging" (by decide) rest
        · exact .inr failed
      · cases made

end Ready

/-- An action has been done as a whole, or it has failed and some entries are as they were. -/
def AllOrNothing {α : Type} (s : Store) (d : FilePlace) (kept : List String)
    (done : α → FileTree → Prop) (w w' : World) (x : Except Fault α) : Prop :=
  (∃ y, x = .ok y ∧ done y w'.tree) ∨
    (∃ e, x = .error e) ∧ ∀ name ∈ kept, w.tree.SameBranch w'.tree (s.entry d name)

namespace AllOrNothing

variable {α : Type} {kept : List String} {done : α → FileTree → Prop} {w₁ : World}
  {x : Except Fault α}

/-- What is done before does not touch the entries. -/
theorem after (same : ∀ name ∈ kept, w.tree.SameBranch w₁.tree (s.entry d name))
    (h : AllOrNothing s d kept done w₁ w' x) : AllOrNothing s d kept done w w' x :=
  h.imp_right fun ⟨failed, same'⟩ =>
    ⟨failed, fun name mem => (same name mem).trans (same' name mem)⟩

/-- What is done afterwards does not touch the entries. -/
theorem before (h : AllOrNothing s d kept done w w₁ x)
    (same : ∀ name ∈ kept, w₁.tree.SameBranch w'.tree (s.entry d name))
    (stable : ∀ y, done y w₁.tree → done y w'.tree) : AllOrNothing s d kept done w w' x :=
  h.imp (fun ⟨y, made, all⟩ => ⟨y, made, stable y all⟩) fun ⟨failed, same'⟩ =>
    ⟨failed, fun name mem => (same' name mem).trans (same name mem)⟩

theorem of_ok {y : α} (h : AllOrNothing s d kept done w w' (.ok y)) : done y w'.tree := by
  obtain ⟨y', made, all⟩ := h.resolve_right fun failed => nomatch failed.1
  cases made
  exact all

theorem of_error {e : Fault} (h : AllOrNothing s d kept done w w' (.error e)) :
    ∀ name ∈ kept, w.tree.SameBranch w'.tree (s.entry d name) :=
  (h.resolve_left fun ⟨_, made, _⟩ => nomatch made).2

end AllOrNothing

/-- What becomes of the newest release when a directory is to be made it: it is a copy of the
directory, or it is as before. Without a fault and without failures it is the copy. -/
structure Replaced (s : Store) (d : FilePlace) (files : String → Option ByteArray) (w w' : World)
    (x : Except Fault Unit) (n : Nat) : Prop where
  outcome : AllOrNothing s d [latestName]
    (fun (_ : Unit) tree => tree.IsFolder (s.entry d latestName) files) w w' x
  ready : s.Ready d w'
  succeeds : w.fault = none → n = 0 → x = .ok ()

namespace Replaced

variable {w₁ : World} {names : List String} {x : Except Fault Unit} {n₁ n₂ : Nat}

theorem failed {e : Fault} (touches : s.Touches d names w w')
    (others : ∀ name ∈ [latestName], name ∉ names) (counted : w.fault = none → n ≠ 0) :
    Replaced s d files w w' (.error e) n where
  outcome := .inr ⟨⟨e, rfl⟩, touches.keeps others⟩
  ready := touches.ready
  succeeds noFault none := absurd none (counted noFault)

theorem after {α : Type} {action : FileAction α} {y : α} (first : Suffers action w (.ok y) w₁ n₁)
    (touches : s.Touches d names w w₁) (others : ∀ name ∈ [latestName], name ∉ names)
    (h : Replaced s d files w₁ w' x n₂) : Replaced s d files w w' x (n₁ + n₂) where
  outcome := h.outcome.after (touches.keeps others)
  ready := h.ready
  succeeds noFault none := h.succeeds (first.fault_eq_none noFault) (by omega)

theorem before (h : Replaced s d files w w₁ x n₁) (touches : s.Touches d names w₁ w')
    (others : ∀ name ∈ [latestName], name ∉ names) : Replaced s d files w w' x (n₁ + n₂) where
  outcome := h.outcome.before (touches.keeps others) fun _ folder =>
    folder.congr (touches.keeps others _ List.mem_cons_self)
  ready := touches.ready
  succeeds noFault none := h.succeeds noFault (by omega)

end Replaced

namespace Ready

variable (ready : s.Ready d w)

include ready

theorem clear_replaced {x : Except Fault Unit} {name : String} {next : FileAction Unit}
    (few : n ≤ 1) (isName : IsPieceName name) (other : latestName ≠ name)
    (onward : ∀ {w₁ n}, s.Touches d [name] w w₁ → w₁.tree.IsFree (s.entry d name) → n ≤ 1 →
      Suffers next w₁ x w' n → Replaced s d files w₁ w' x n)
    (h : Suffers (do removeIfExists (s.file name); next) w x w' n) :
    Replaced s d files w w' x n := by
  have others : ∀ name' ∈ [latestName], name' ∉ [name] := by simpa using other
  rcases h.bind_cases with ⟨e, rfl, failed⟩ | ⟨_, w₁, n₁, n₂, cleared, rest, rfl⟩
  · refine .failed (ready.touches_removeIfExists isName failed) others fun _ none => ?_
    rcases ready.removeIfExists_cases isName failed with ⟨made, -⟩ | ⟨-, one, -⟩
    · cases made
    · omega
  · have touches := ready.touches_removeIfExists isName cleared
    rcases ready.removeIfExists_cases isName cleared with ⟨-, -, free⟩ | ⟨⟨e, made⟩, -⟩
    · exact .after cleared touches others (onward touches free (by omega) rest)
    · cases made

theorem copyLatest_replaced {x : Except Fault Unit} (few : n ≤ 1) (isName : IsPieceName a)
    (other : a ∉ latestNames) (folder : w.tree.IsFolder (s.entry d a) files)
    (h : Suffers (do
      removeIfExists (s.file ".latest.staging")
      removeIfExists (s.file ".latest.old")
      copyFiles (s.file a) (s.file ".latest.staging")
      s.swapLatest) w x w' n) : Replaced s d files w w' x n := by
  have staging := isPieceName_latestStaging
  have notStaging : a ≠ ".latest.staging" := fun same => other (same ▸ by decide)
  have notOld : a ≠ ".latest.old" := fun same => other (same ▸ by decide)
  refine ready.clear_replaced few staging (by decide) (fun touches₁ free few h => ?_) h
  refine touches₁.ready.clear_replaced few isPieceName_latestOld (by decide)
    (fun {w₂ _} touches₂ _ few h => ?_) h
  have folder₂ := (folder.congr (touches₁.same a (by simpa using notStaging))).congr
    (touches₂.same a (by simpa using notOld))
  have free₂ := free.congr (touches₂.same ".latest.staging" (by decide))
  have ready₂ := touches₂.ready
  rcases h.bind_cases with ⟨e, rfl, failed⟩ | ⟨_, w₃, n₁, n₂, copied, swapping, rfl⟩
  · have copies := ready₂.copyFiles_cases isName staging notStaging folder₂ free₂ failed
    refine .failed (ready₂.touches (ready₂.within_copyFiles staging _) failed) (by decide)
      fun noFault none => ?_
    cases copies.2 noFault none
  · have copies := ready₂.copyFiles_cases isName staging notStaging folder₂ free₂ copied
    have touches₃ := ready₂.touches (ready₂.within_copyFiles staging _) copied
    refine .after copied touches₃ (by decide) ?_
    have swaps : s.swapLatest.Within d (s.Owns d latestNames) (OnWay d s.root) :=
      within_swapLatest ready.written (fun _ => id) (List.Subset.refl _)
    have ready₄ := (touches₃.ready.touches swaps swapping).ready
    rcases touches₃.ready.swapLatest_cases (by omega) swapping with
      ⟨rfl, taken⟩ | ⟨⟨e, rfl⟩, counted, same⟩
    · refine ⟨.inl ⟨(), rfl, fun rest => ?_⟩, ready₄, fun _ _ => rfl⟩
      rw [taken rest]
      exact copies.1 rfl rest
    · exact ⟨.inr ⟨⟨e, rfl⟩, List.forall_mem_singleton.2 same⟩, ready₄, fun _ none => by omega⟩

theorem replaceLatest_replaced {x : Except Fault Unit} (few : n ≤ 1) (isName : IsPieceName a)
    (other : a ∉ latestNames) (folder : w.tree.IsFolder (s.entry d a) files)
    (h : Suffers (s.replaceLatest (s.file a)) w x w' n) : Replaced s d files w w' x n := by
  have lock := isPieceName_latestLock
  have notLock : a ≠ ".latest.lock" := fun same => other (same ▸ by decide)
  have waiting : (Lock.wait latestAttempts (s.file ".latest.lock")).Within d
      (s.Owns d [".latest.lock"]) (OnWay d s.root) :=
    Lock.within_wait (ready.written.join _) (here_file (fun _ => id) List.mem_cons_self lock) _
  rcases h.bind_cases with ⟨e, rfl, failed⟩ | ⟨_, w₁, n₁, n₂, waited, onward, rfl⟩
  · refine .failed (ready.touches waiting failed) (by decide) fun noFault none => ?_
    subst none
    cases Lock.wait_succeeds noFault failed
  · have touches := ready.touches waiting waited
    refine .after waited touches (by decide) ?_
    obtain ⟨w₂, z, n₃, n₄, copied, released, rfl⟩ := onward.finallyDo_cases
    have folder₁ := folder.congr (touches.same a (by simpa using notLock))
    have replaced := touches.ready.copyLatest_replaced (by omega) isName other folder₁ copied
    exact replaced.before (replaced.ready.touches_release lock released) (by decide)

theorem touches_replaceLatest {source : FilePath} {x : Except Fault Unit}
    (h : Suffers (s.replaceLatest source) w x w' n) : s.Touches d latestNames w w' :=
  ready.touches (within_replaceLatest ready.written (fun _ => id) (List.Subset.refl _)
    (fun _ => id) source) h

/-- When the newest release cannot be replaced, the release that was to become it can be removed
again, if no more than one operation fails. -/
theorem rollback {e : Fault} {z : Except Fault Unit} {w₁ : World} {n₁ n₂ : Nat}
    (few : n₁ + n₂ ≤ 1) (isName : IsPieceName a) (other : a ∉ latestNames)
    (folder : w.tree.IsFolder (s.entry d a) files)
    (failed : Suffers (s.replaceLatest (s.file a)) w (.error e) w₁ n₁)
    (undoing : Suffers (removeTree (s.file a)) w₁ z w' n₂) :
    w'.tree.IsFree (s.entry d a) ∧ w.tree.SameBranch w'.tree (s.entry d latestName) := by
  have replaced := ready.replaceLatest_replaced (by omega) isName other folder failed
  have touches₁ := ready.touches_replaceLatest failed
  have touches₂ := touches₁.ready.touches_removeTree isName undoing
  have notLatest : latestName ∉ [a] := fun mem => other (List.mem_singleton.1 mem ▸ by decide)
  have same := replaced.outcome.of_error latestName List.mem_cons_self
  refine ⟨?_, same.trans (touches₂.same _ notLatest)⟩
  have removed : z = .ok () → w'.tree.IsFree (s.entry d a) := by
    rintro rfl
    rcases touches₁.ready.removeTree_cases isName undoing with ⟨-, -, free⟩ | ⟨⟨_, made⟩, -⟩
    · exact free
    · cases made
  apply removed
  by_cases pending : w₁.fault = none
  · -- No fault is to come any more, so that nothing is in the way of removing the directory.
    have folder₁ := folder.congr (touches₁.same a other)
    exact touches₁.ready.removeTree_succeeds isName pending (folder₁.get? entry_ne_nil) undoing
  · -- The fault is still to come, so that what failed was another operation, and it counts.
    have counted : n₁ ≠ 0 := by
      rintro rfl
      have calmly := ready.calm.replaceLatest_replaced (by omega) isName other folder
        (failed.calm pending)
      cases calmly.succeeds rfl rfl
    rcases touches₁.ready.removeTree_cases isName undoing with ⟨made, -⟩ | ⟨-, one, -⟩
    · exact made
    · omega

end Ready

end ProductSpec.Store
