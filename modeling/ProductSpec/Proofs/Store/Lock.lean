/-
  Taking locks: without a fault and without failures a lock is taken in the end, and it is taken
  only where there is a directory for it.
-/
import ProductSpec.Proofs.File.Refusal
import ProductSpec.Proofs.Store.Footprint

namespace ProductSpec.Lock

open FileAction FileTree

variable {w w' : World} {p : FilePath} {n : Nat}

/-- That something exists already is never the reason why a path has no place. -/
theorem walk_ne_alreadyExists (t : FileTree) (here : FilePlace) (xs : List String) :
    t.walk here xs ≠ .error .alreadyExists := by
  induction xs generalizing here with
  | nil =>
    intro same
    cases same
  | cons piece rest ih =>
    cases entry : t.get? here with
    | none =>
      rw [walk, entry]
      dsimp only
      split <;> intro same <;> cases same
    | some e =>
      cases e with
      | file =>
        rw [walk, entry]
        intro same
        cases same
      | directory =>
        rw [walk_cons entry]
        exact ih _

theorem place_ne_alreadyExists (t : FileTree) (directory : FilePlace) (p : FilePath) :
    t.place directory p ≠ .error .alreadyExists := by
  unfold place
  split
  · intro same
    cases same
  · split
    · intro same
      cases same
    · split <;> exact walk_ne_alreadyExists _ _ _

/-- Without a fault a lock that is refused leaves everything as it is. -/
theorem answer_createFile_error {e : FileError} (noFault : w.fault = none)
    (h : w.answer (.createFile p) = (.error e, w')) :
    w' = w ∧ (e = .alreadyExists → ∃ q, w.Places p q ∧ w.tree.get? q ≠ none) := by
  rw [World.answer, World.attempt_eq noFault] at h
  unfold World.changeFile World.change World.look at h
  cases placed : w.tree.place w.directory p with
  | error e' =>
    rw [placed] at h
    cases h
    exact ⟨rfl, fun same => absurd (same ▸ placed) (place_ne_alreadyExists _ _ _)⟩
  | ok q =>
    rw [placed] at h
    dsimp only [Except.bind] at h
    cases slash : p.endsInSlash with
    | true =>
      rw [slash, if_pos rfl] at h
      cases h
      exact ⟨rfl, fun same => by cases same⟩
    | false =>
      rw [slash, if_neg Bool.false_ne_true] at h
      cases found : w.tree.get? q with
      | none =>
        rw [createFile, found] at h
        cases h
      | some old =>
        rw [createFile, found] at h
        cases h
        exact ⟨rfl, fun _ => ⟨q, placed, by rw [found]; exact Option.some_ne_none _⟩⟩

/-- What becomes of creating a lock if nothing fails but for a stale lock that is there. -/
theorem create_cases {x : Except Fault Bool} (noFault : w.fault = none)
    (h : Suffers (create p) w x w' 0) :
    x = .ok true ∨ x = .ok false ∧ w' = w ∧ ((isStale p).run w).1 = true ∧
      ∃ q, w.Places p q ∧ w.tree.get? q ≠ none := by
  rcases h.bind_cases with ⟨e, -, asked⟩ | ⟨reply, w₁, n₁, n₂, asked, onward, count⟩
  · obtain ⟨_, -, made, -⟩ := asked.ofProgram_cases
    cases made
  obtain ⟨reply', ran, made, failures⟩ := asked.ofProgram_cases
  cases made
  have answer : w.answer (.createFile p) = (reply, w₁) := ran
  have counted : w.failures (.createFile p) = 0 := by
    have same : n₁ = w.failures (.createFile p) := failures
    omega
  cases reply with
  | error e =>
    obtain ⟨rfl, occupied⟩ := answer_createFile_error noFault answer
    have refused : (FileRequest.createFile p).refusal? (w₁.answer (.createFile p)).1 = some e := by
      rw [answer]
      rfl
    rw [World.failures, refused] at counted
    dsimp only at counted
    by_cases known : e = .alreadyExists
    · subst known
      obtain ⟨made, same⟩ := onward.yields.unique (yields_pure false w₁)
      refine .inr ⟨made, same, ?_, occupied rfl⟩
      have calm : w₁.calm = w₁ := by rw [World.calm, ← noFault]
      by_contra fresh
      rw [if_pos ⟨rfl, fun stale => fresh (calm ▸ stale.2)⟩] at counted
      cases counted
    · rw [if_pos ⟨rfl, fun both => known both.1⟩] at counted
      cases counted
  | ok =>
    refine .inl ?_
    rcases onward.bind_cases with ⟨e, -, told⟩ | ⟨now, w₂, n₃, n₄, told, telling, split⟩
    · obtain ⟨_, -, made, -⟩ := told.ofProgram_cases
      cases made
    · rcases telling.bind_cases with ⟨e, -, failed⟩ | ⟨_, w₃, n₅, n₆, -, done, -⟩
      · rcases failed.append_cases with ⟨made, -⟩ | ⟨-, one, -⟩
        · cases made
        · omega
      · exact (done.yields.unique (yields_pure true w₃)).1

/-- A lock that is broken without a failure is no longer there. -/
theorem discard_cases {x : Except Fault Unit} (h : Suffers (discard p) w x w' 0) :
    x = .ok () ∧ w'.directory = w.directory ∧ w.Effect (.removeFile p) w'.tree := by
  rcases h.bind_cases with ⟨e, -, asked⟩ | ⟨reply, w₁, n₁, n₂, asked, onward, count⟩
  · obtain ⟨_, -, made, -⟩ := asked.ofProgram_cases
    cases made
  obtain ⟨reply', ran, made, failures⟩ := asked.ofProgram_cases
  cases made
  have answer : w.answer (.removeFile p) = (reply, w₁) := ran
  have counted : w.failures (.removeFile p) = 0 := by
    have same : n₁ = w.failures (.removeFile p) := failures
    omega
  obtain ⟨directory, ⟨e, refused, -⟩ | ⟨done, effect⟩⟩ := World.answer_cases w (.removeFile p)
  · rw [World.failures_of_refused refused rfl rfl] at counted
    cases counted
  · rw [answer] at directory done effect
    cases reply with
    | error => cases done
    | ok =>
      obtain ⟨rfl, rfl⟩ := onward.yields.unique (yields_pure () w₁)
      exact ⟨rfl, directory, effect⟩

/-- Without a fault and without failures a lock is taken, if need be from one who left it. -/
theorem take_succeeds {x : Except Fault Bool} (noFault : w.fault = none)
    (h : Suffers (take p) w x w' 0) : x = .ok true := by
  rcases h.bind_cases with ⟨e, -, failed⟩ | ⟨taken, w₁, n₁, n₂, created, onward, count⟩
  · rcases create_cases noFault failed with made | ⟨made, -⟩ <;> cases made
  obtain ⟨rfl, rfl⟩ := Nat.add_eq_zero_iff.1 count.symm
  rcases create_cases noFault created with made | ⟨made, rfl, stale, q, placed, there⟩
  · cases made
    exact (onward.yields.unique (yields_pure true w₁)).1
  cases made
  -- The lock that is there is stale, so it is broken.
  rcases onward.bind_cases with ⟨e, -, failed⟩ | ⟨answer, w₂, n₁, n₂, asked, breaking, count⟩
  · obtain ⟨_, -, made, -⟩ := failed.ofProgram_cases
    cases made
  have noFault₂ := asked.fault_eq_none noFault
  obtain ⟨rfl, rfl⟩ := Nat.add_eq_zero_iff.1 count.symm
  obtain ⟨reply, ran, made, -⟩ := asked.ofProgram_cases
  rw [ran] at stale
  cases made
  dsimp only at stale
  subst stale
  rcases breaking.bind_cases with ⟨e, -, failed⟩ | ⟨_, w₃, n₁, n₂, discarded, again, count⟩
  · cases (discard_cases failed).1
  obtain ⟨rfl, rfl⟩ := Nat.add_eq_zero_iff.1 count.symm
  obtain ⟨-, directory, effect⟩ := discard_cases discarded
  rcases create_cases (discarded.fault_eq_none noFault₂) again with
    made | ⟨-, -, -, q', placed', there'⟩
  · exact made
  · -- Nothing is at the place of the lock any more.
    refine absurd ?_ there'
    have place := place_eq_resolve placed'
    unfold World.Places at placed'
    generalize w₃.tree = tree at effect placed' there' ⊢
    cases effect with
    | look looks => cases looks
    | removeFile broken found =>
      have same := place_eq_resolve broken
      rw [directory] at place
      rw [place.trans same.symm]
      exact get?_erase_self (ne_nil_of_get? found nofun)

/-- Without a fault and without failures the first attempt to take a lock is enough. -/
theorem wait_succeeds {attempts : Nat} {x : Except Fault Unit}
    (noFault : w.fault = none) (h : Suffers (wait (attempts + 1) p) w x w' 0) : x = .ok () := by
  rcases h.bind_cases with ⟨e, -, failed⟩ | ⟨taken, w₁, n₁, n₂, took, onward, count⟩
  · cases take_succeeds noFault failed
  · obtain ⟨rfl, rfl⟩ := Nat.add_eq_zero_iff.1 count.symm
    cases take_succeeds noFault took
    exact (onward.yields.unique (yields_pure () w₁)).1

section Directory

variable (proper : w.Proper) (written : p.IsWritten)

include proper written

/-- A lock is created in a directory. -/
theorem isDirectory_of_create (h : Yields (create p) w (.ok true) w') :
    w.tree.get? (resolve w.directory p).dropLast = some .directory := by
  rcases h.bind_cases with ⟨e, failed, -⟩ | ⟨reply, w₁, asked, onward⟩
  · cases failed
  obtain ⟨reply', ran, made⟩ := asked.ofProgram_cases
  cases made
  have answer : w.answer (.createFile p) = (reply, w₁) := ran
  have done : (FileRequest.createFile p).refusal? (w.answer (.createFile p)).1 = none := by
    rw [answer]
    cases reply with
    | ok => rfl
    | error e =>
      by_cases known : e = .alreadyExists
      · subst known
        cases (onward.unique (yields_pure false w₁)).1
      · have refused : Yields (throw (.file e) : FileAction Bool) w₁ (.ok true) w' := by
          cases e with
          | alreadyExists => exact absurd rfl known
          | _ => exact onward
        cases (refused.unique (yields_throw (.file e) w₁)).1
  have effect := World.effect_answer done
  generalize (w.answer (.createFile p)).2.tree = tree at effect
  cases effect with
  | look looks => cases looks
  | createFile placed =>
    rw [← place_eq_resolve placed]
    exact proper.standing_place written placed

theorem isDirectory_of_take (h : Yields (take p) w (.ok true) w') :
    w.tree.get? (resolve w.directory p).dropLast = some .directory := by
  rcases h.bind_cases with ⟨e, failed, -⟩ | ⟨taken, w₁, created, onward⟩
  · cases failed
  cases taken with
  | true => exact isDirectory_of_create proper written created
  | false =>
    rcases onward.bind_cases with ⟨e, failed, -⟩ | ⟨stale, w₂, asked, breaking⟩
    · cases failed
    cases stale with
    | false => cases (breaking.unique (yields_pure false w₂)).1
    | true =>
      rcases breaking.bind_cases with ⟨e, failed, -⟩ | ⟨_, w₃, discarded, again⟩
      · cases failed
      -- Up to the second attempt nothing changes but at the place of the lock.
      have first : w.Kept (Eq (resolve w.directory p)) (fun _ => False) w₁ :=
        (within_create written rfl).yields proper created
      have second : w₁.Kept (Eq (resolve w.directory p)) (fun _ => False) w₂ :=
        (within_ofProgram (within_isStale p)).yields first.proper asked
      have third : w₂.Kept (Eq (resolve w.directory p)) (fun _ => False) w₃ :=
        (within_discard (by rw [second.directory, first.directory])).yields second.proper discarded
      have kept := first.trans (second.trans third)
      have directory := isDirectory_of_create kept.proper written again
      rw [kept.directory] at directory
      generalize resolve w.directory p = q at kept directory ⊢
      by_cases same : q = q.dropLast
      · have root : q = [] := by
          have length := congrArg List.length same
          rw [List.length_dropLast] at length
          exact List.length_eq_zero_iff.1 (by omega)
        rw [root]
        rfl
      · rwa [get?_congr (kept.tree.entriesAt_eq same id)] at directory

end Directory

end ProductSpec.Lock
