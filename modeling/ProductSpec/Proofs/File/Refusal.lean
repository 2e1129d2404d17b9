/-
  How many of the operations that an action performs fail, and that a fault which never strikes
  makes no difference.
-/
import ProductSpec.Proofs.File.Effect
import ProductSpec.Store.Lock

namespace ProductSpec

/-- Whether the failure of an operation counts: of those that change files, all but the creation of
a directory. -/
def FileRequest.counts : FileRequest → Bool
  | createFile _ | write _ _ | append _ _ | copy _ _ | rename _ _ | removeFile _ | removeTree _ =>
    true
  | _ => false

namespace World

variable {α : Type} {w : World} {r : FileRequest}

/-- The same world without a fault. -/
def calm (w : World) : World := { w with fault := none }

/-- Whether an operation finds a lock that is stale. -/
def findsStale (w : World) : FileRequest → Bool
  | .createFile p => ((Lock.isStale p).run w.calm).1
  | _ => false

/-- How many failures an operation adds. The creation of a directory adds none, as one that is
there already will do, and neither does that of a lock which is found to be stale. -/
def failures (w : World) (r : FileRequest) : Nat :=
  match r.refusal? (w.answer r).1 with
  | none => 0
  | some e => if r.counts ∧ ¬ (e = .alreadyExists ∧ w.findsStale r) then 1 else 0

theorem failures_of_refused {e : FileError} (refused : r.refusal? (w.answer r).1 = some e)
    (counts : r.counts = true) (notStale : w.findsStale r = false) : w.failures r = 1 := by
  rw [failures, refused]
  dsimp only
  rw [if_pos ⟨counts, by rw [notStale]; simp⟩]

theorem failures_of_done (done : r.refusal? (w.answer r).1 = none) : w.failures r = 0 := by
  rw [failures, done]

theorem failures_of_not_counts (h : r.counts = false) : w.failures r = 0 := by
  unfold failures
  split
  · rfl
  · rw [if_neg (by rw [h]; simp)]

/-- What is done alike whether or not a fault is still to come. -/
def Indifferent (f : World → Except FileError α × World) : Prop :=
  ∀ w, f w.calm = ((f w).1, (f w).2.calm)

theorem attempt_calm {f : World → Except FileError α × World} (h : Indifferent f)
    (pending : (w.attempt f).2.fault ≠ none) :
    w.calm.attempt f = ((w.attempt f).1, (w.attempt f).2.calm) := by
  obtain ⟨tree, directory, clock, output, fault⟩ := w
  match fault with
  | none => exact h _
  | some (0, e) => exact absurd rfl pending
  | some (n + 1, e) => exact h ⟨tree, directory, clock, output, some (n, e)⟩

theorem indifferent_change {p : FilePath} {f : World → FilePlace → Except FileError FileTree}
    (h : ∀ w, f w.calm = f w) : Indifferent fun w => w.change p (f w) := by
  intro w
  have looked : w.calm.look p (f w.calm) = w.look p (f w) := by
    rw [h]
    rfl
  dsimp only
  unfold change
  rw [looked]
  cases w.look p (f w) <;> rfl

/-- As long as the fault does not strike, an operation does what it does without it. -/
theorem answer_calm (pending : (w.answer r).2.fault ≠ none) :
    w.calm.answer r = ((w.answer r).1, (w.answer r).2.calm) := by
  cases r with
  | now | kind | pause | print => rfl
  | read | list | modified | canonical => exact attempt_calm (fun _ => rfl) pending
  | createDirectory | createFile | write | append | removeFile | removeTree | copy | rename =>
    exact attempt_calm (indifferent_change fun _ => rfl) pending

theorem fault_attempt {f : World → Except FileError α × World}
    (same : (f w).2.fault = w.fault) (noFault : w.fault = none) : (w.attempt f).2.fault = none := by
  rw [attempt_eq noFault, same, noFault]

theorem fault_change {p : FilePath} {f : FilePlace → Except FileError FileTree} :
    (w.change p f).2.fault = w.fault := by
  unfold change
  cases w.look p f <;> rfl

/-- A fault does not come back. -/
theorem fault_answer (noFault : w.fault = none) : (w.answer r).2.fault = none := by
  cases r with
  | now | kind | pause | print => exact noFault
  | read | list | modified | canonical => exact fault_attempt rfl noFault
  | createDirectory | createFile | write | append | removeFile | removeTree | copy | rename =>
    exact fault_attempt fault_change noFault

theorem failures_calm (pending : (w.answer r).2.fault ≠ none) :
    w.calm.failures r = w.failures r := by
  have stale : w.calm.findsStale r = w.findsStale r := by
    cases r <;> rfl
  unfold failures
  rw [answer_calm pending, stale]

end World

namespace FileProgram

variable {α β : Type} {w : World} {p : FileProgram α}

/-- How many operations that change files fail in a run. -/
def failures : FileProgram α → World → Nat
  | done _, _ => 0
  | ask r next, w => w.failures r + (next (w.answer r).1).failures (w.answer r).2

theorem failures_bind (p : FileProgram α) (f : α → FileProgram β) (w : World) :
    (p >>= f).failures w = p.failures w + (f (p.run w).1).failures (p.run w).2 := by
  induction p generalizing w with
  | done a => exact (Nat.zero_add _).symm
  | ask r next ih =>
    change w.failures r + (next _ >>= f).failures _ = _
    rw [ih, ← Nat.add_assoc]
    rfl

theorem fault_run (noFault : w.fault = none) : (p.run w).2.fault = none := by
  induction p generalizing w with
  | done => exact noFault
  | ask r next ih => exact ih _ (World.fault_answer noFault)

/-- As long as the fault does not strike, a run is the one without it. -/
theorem run_calm (pending : (p.run w).2.fault ≠ none) :
    p.run w.calm = ((p.run w).1, (p.run w).2.calm) ∧ p.failures w.calm = p.failures w := by
  induction p generalizing w with
  | done => exact ⟨rfl, rfl⟩
  | ask r next ih =>
    have still : (w.answer r).2.fault ≠ none := fun struck =>
      pending (fault_run (p := next (w.answer r).1) struck)
    obtain ⟨same, count⟩ := ih _ pending
    have answer := World.answer_calm still
    constructor
    · change (next (w.calm.answer r).1).run (w.calm.answer r).2 = _
      rw [answer]
      exact same
    · change w.calm.failures r + (next (w.calm.answer r).1).failures (w.calm.answer r).2 = _
      rw [answer, World.failures_calm still]
      exact congrArg (w.failures r + ·) count

end FileProgram

namespace FileAction

variable {α β : Type} {w w₁ w₂ : World} {a : FileAction α} {n : Nat}

/-- How many operations that change files fail in a run. -/
def failures (a : FileAction α) (w : World) : Nat := (ExceptT.run a).failures w

/-- In one world an action comes to a result and leaves another world behind, and so many
operations fail on the way. -/
structure Suffers (a : FileAction α) (w : World) (result : Except Fault α) (w' : World)
    (n : Nat) : Prop where
  yields : Yields a w result w'
  failures : a.failures w = n

namespace Suffers

variable {x : Except Fault α} {y : Except Fault β}

/-- As long as the fault does not strike, an action does what it does without it. -/
theorem calm (h : Suffers a w x w₁ n) (pending : w₁.fault ≠ none) :
    Suffers a w.calm x w₁.calm n := by
  obtain ⟨yields, rfl⟩ := h
  have run : ((ExceptT.run a).run w) = (x, w₁) := yields
  obtain ⟨same, count⟩ := FileProgram.run_calm (p := ExceptT.run a) (w := w) (by rwa [run])
  rw [run] at same
  exact ⟨same, count⟩

theorem fault_eq_none (h : Suffers a w x w₁ n) (noFault : w.fault = none) : w₁.fault = none := by
  have struck := FileProgram.fault_run (p := ExceptT.run a) noFault
  rwa [h.yields] at struck

theorem bind_cases {f : α → FileAction β} (h : Suffers (a >>= f) w y w₂ n) :
    (∃ e, y = .error e ∧ Suffers a w (.error e) w₂ n) ∨
      ∃ x w₁ n₁ n₂, Suffers a w (.ok x) w₁ n₁ ∧ Suffers (f x) w₁ y w₂ n₂ ∧ n = n₁ + n₂ := by
  obtain ⟨yields, rfl⟩ := h
  have count : (a >>= f).failures w = a.failures w +
      (ExceptT.bindCont f ((ExceptT.run a).run w).1).failures ((ExceptT.run a).run w).2 :=
    FileProgram.failures_bind (ExceptT.run a) (ExceptT.bindCont f) w
  rcases yields.bind_cases with ⟨e, rfl, failed⟩ | ⟨x, w₁, first, rest⟩
  · rw [failed] at count
    exact .inl ⟨e, rfl, failed, count.symm⟩
  · rw [first] at count
    exact .inr ⟨x, w₁, _, _, ⟨first, rfl⟩, ⟨rest, rfl⟩, count⟩

theorem onFailure_cases {undo : FileAction Unit} (h : Suffers (a.onFailure undo) w x w₂ n) :
    (∃ value, x = .ok value ∧ Suffers a w (.ok value) w₂ n) ∨
      ∃ e w₁ z n₁ n₂, x = .error e ∧ Suffers a w (.error e) w₁ n₁ ∧ Suffers undo w₁ z w₂ n₂ ∧
        n = n₁ + n₂ := by
  obtain ⟨yields, rfl⟩ := h
  rcases yields.onFailure_cases with ⟨value, rfl, done⟩ | ⟨e, w₁, z, rfl, failed, undone⟩
  · refine .inl ⟨value, rfl, done, ?_⟩
    change _ = (ExceptT.run a >>= _).failures w
    rw [FileProgram.failures_bind, done]
    rfl
  · refine .inr ⟨e, w₁, z, _, _, rfl, ⟨failed, rfl⟩, ⟨undone, rfl⟩, ?_⟩
    change (ExceptT.run a >>= _).failures w = _
    rw [FileProgram.failures_bind, failed]
    refine congrArg (a.failures w + ·) ?_
    change (ExceptT.run undo >>= _).failures w₁ = _
    rw [FileProgram.failures_bind]
    rfl

theorem finallyDo_cases {last : FileAction Unit} (h : Suffers (a.finallyDo last) w x w₂ n) :
    ∃ w₁ z n₁ n₂, Suffers a w x w₁ n₁ ∧ Suffers last w₁ z w₂ n₂ ∧ n = n₁ + n₂ := by
  obtain ⟨yields, rfl⟩ := h
  obtain ⟨w₁, z, first, ending⟩ := yields.finallyDo_cases
  refine ⟨w₁, z, _, _, ⟨first, rfl⟩, ⟨ending, rfl⟩, ?_⟩
  change (ExceptT.run a >>= fun result => ExceptT.run last >>= fun _ => pure result).failures w = _
  rw [FileProgram.failures_bind, first]
  refine congrArg (a.failures w + ·) ?_
  rw [FileProgram.failures_bind]
  rfl

theorem tolerate_cases {a : FileAction Unit} {x : Except Fault Unit}
    (h : Suffers (FileAction.tolerate a) w x w₁ n) : x = .ok () ∧ ∃ z, Suffers a w z w₁ n := by
  obtain ⟨yields, rfl⟩ := h
  obtain ⟨rfl, z, ran⟩ := yields.tolerate_cases
  refine ⟨rfl, z, ran, ?_⟩
  change _ = ((ExceptT.run a >>= fun _ => pure ()) >>= _).failures w
  rw [FileProgram.failures_bind, FileProgram.failures_bind]
  rfl

theorem ofProgram_cases {p : FileProgram α} (h : Suffers (ofProgram p) w x w₁ n) :
    ∃ reply, p.run w = (reply, w₁) ∧ x = .ok reply ∧ n = p.failures w := by
  obtain ⟨yields, rfl⟩ := h
  obtain ⟨reply, ran, rfl⟩ := yields.ofProgram_cases
  refine ⟨reply, ran, rfl, ?_⟩
  change (p >>= _).failures w = _
  rw [FileProgram.failures_bind]
  rfl

theorem ofFile_cases {p : FileProgram (Except FileError α)} (h : Suffers (ofFile p) w x w₁ n) :
    ∃ reply, p.run w = (reply, w₁) ∧ x = reply.mapError Fault.file ∧ n = p.failures w := by
  obtain ⟨yields, rfl⟩ := h
  obtain ⟨reply, ran, rfl⟩ := yields.ofFile_cases
  refine ⟨reply, ran, rfl, ?_⟩
  change (p >>= _).failures w = _
  rw [FileProgram.failures_bind]
  rfl

/-- Whether something is there is always told, and asking changes nothing. -/
theorem exists?_bind {p : FilePath} {f : Bool → FileAction β}
    (h : Suffers (exists? p >>= f) w y w₂ n) : ∃ found, Suffers (f found) w y w₂ n := by
  rcases h.bind_cases with ⟨e, -, asked⟩ | ⟨found, w₁, n₁, n₂, asked, onward, rfl⟩
  · obtain ⟨_, -, made, -⟩ := asked.ofProgram_cases
    cases made
  · obtain ⟨_, ran, -, rfl⟩ := asked.ofProgram_cases
    obtain rfl : w = w₁ := (Prod.mk.inj ran).2
    have none : (FileProgram.exists? p).failures w = 0 := rfl
    rw [none, Nat.zero_add]
    exact ⟨found, onward⟩

end Suffers

section Operations

variable {x : Except Fault Unit} {p p' : FilePath}

/-- An operation that changes files fails and changes nothing, or it has its effect. -/
theorem Suffers.change_cases {program : FileProgram (Except FileError Unit)} (r : FileRequest)
    (h : Suffers (ofFile program) w x w₁ n)
    (reply : r.refusal? (w.answer r).1 = FileRequest.errorOf (program.run w).1)
    (world : (w.answer r).2 = (program.run w).2) (count : program.failures w = w.failures r)
    (counts : r.counts = true) (notStale : w.findsStale r = false) :
    (x = .ok () ∧ n = 0 ∧ w.Effect r w₁.tree) ∨
      (∃ e, x = .error e) ∧ n = 1 ∧ w₁.tree = w.tree := by
  obtain ⟨result, ran, rfl, rfl⟩ := h.ofFile_cases
  rw [ran] at reply world
  rw [count]
  obtain ⟨-, ⟨e, refused, kept⟩ | ⟨done, effect⟩⟩ := World.answer_cases w r
  · rw [world] at kept
    refine .inr ⟨?_, World.failures_of_refused refused counts notStale, kept⟩
    cases result with
    | ok =>
      rw [reply] at refused
      cases refused
    | error e => exact ⟨_, rfl⟩
  · rw [world] at effect
    refine .inl ⟨?_, World.failures_of_done done, effect⟩
    cases result with
    | ok => rfl
    | error =>
      rw [reply] at done
      cases done

theorem Suffers.rename_cases (h : Suffers (FileAction.rename p p') w x w₁ n) :
    (x = .ok () ∧ n = 0 ∧ w.Effect (.rename p p') w₁.tree) ∨
      (∃ e, x = .error e) ∧ n = 1 ∧ w₁.tree = w.tree :=
  h.change_cases (.rename p p') rfl rfl rfl rfl rfl

theorem Suffers.removeTree_cases (h : Suffers (FileAction.removeTree p) w x w₁ n) :
    (x = .ok () ∧ n = 0 ∧ w.Effect (.removeTree p) w₁.tree) ∨
      (∃ e, x = .error e) ∧ n = 1 ∧ w₁.tree = w.tree :=
  h.change_cases (.removeTree p) rfl rfl rfl rfl rfl

theorem Suffers.writeText_cases {text : String}
    (h : Suffers (FileAction.writeText p text) w x w₁ n) :
    (x = .ok () ∧ n = 0 ∧ w.Effect (.write p text.toUTF8) w₁.tree) ∨
      (∃ e, x = .error e) ∧ n = 1 ∧ w₁.tree = w.tree :=
  h.change_cases (.write p text.toUTF8) rfl rfl rfl rfl rfl

theorem Suffers.append_cases {content : ByteArray}
    (h : Suffers (ofFile (.perform (.append p content))) w x w₁ n) :
    (x = .ok () ∧ n = 0 ∧ w.Effect (.append p content) w₁.tree) ∨
      (∃ e, x = .error e) ∧ n = 1 ∧ w₁.tree = w.tree :=
  h.change_cases (.append p content) rfl rfl rfl rfl rfl

theorem Suffers.copy_cases (h : Suffers (ofFile (.perform (.copy p p'))) w x w₁ n) :
    (x = .ok () ∧ n = 0 ∧ w.Effect (.copy p p') w₁.tree) ∨
      (∃ e, x = .error e) ∧ n = 1 ∧ w₁.tree = w.tree :=
  h.change_cases (.copy p p') rfl rfl rfl rfl rfl

end Operations

end FileAction

end ProductSpec
