/-
  Runs in which every operation is carried out, and actions that do not fail in such runs. What an
  action fails with otherwise is a file error.
-/
import ProductSpec.Proofs.File.Refusal
import ProductSpec.Proofs.File.Directory

namespace ProductSpec

namespace World

variable {w : World} {r : FileRequest}

/-- Whether an operation finds the directory that it would create. -/
def findsDirectory (w : World) : FileRequest → Bool
  | .createDirectory p => ((FileProgram.isDirectory p).run w).1
  | _ => false

/-- Whether an operation is carried out. A directory that is there already need not be created, and
a lock that is stale is taken away first. -/
def carriesOut (w : World) (r : FileRequest) : Bool :=
  match r.refusal? (w.answer r).1 with
  | none => true
  | some e => decide (e = .alreadyExists) && (w.findsStale r || w.findsDirectory r)

theorem carriesOut_of_refused {e : FileError} (refused : r.refusal? (w.answer r).1 = some e)
    (notStale : w.findsStale r = false) (notThere : w.findsDirectory r = false) :
    w.carriesOut r = false := by
  rw [carriesOut, refused]
  dsimp only
  rw [notStale, notThere, Bool.or_false, Bool.and_false]

theorem failures_of_carriesOut (h : w.carriesOut r = true) : w.failures r = 0 := by
  cases refused : r.refusal? (w.answer r).1 with
  | none => exact failures_of_done refused
  | some e =>
    rw [carriesOut, refused] at h
    rw [failures, refused]
    obtain ⟨known, found⟩ := Bool.and_eq_true_iff.1 h
    rcases Bool.or_eq_true_iff.1 found with stale | isThere
    · exact if_neg fun counted => counted.2 ⟨of_decide_eq_true known, stale⟩
    · cases r with
      | createDirectory => rfl
      | _ => cases isThere

/-- A directory that is not created leaves everything as it is. -/
theorem answer_createDirectory_error {w' : World} {p : FilePath} {e : FileError}
    (noFault : w.fault = none)
    (h : w.answer (.createDirectory p) = (.error e, w')) : w' = w := by
  rw [answer, attempt_eq noFault] at h
  rcases change_cases w p w.tree.createDirectory with
    ⟨_, refused⟩ | ⟨q, tree, -, -, made⟩
  · exact (congrArg Prod.snd (h.symm.trans refused))
  · cases h.symm.trans made

end World

namespace FileProgram

variable {α β : Type} {w : World} {p : FileProgram α}

/-- Whether every operation of a run is carried out. -/
def succeeds : FileProgram α → World → Bool
  | done _, _ => true
  | ask r next, w => w.carriesOut r && (next (w.answer r).1).succeeds (w.answer r).2

theorem succeeds_bind (p : FileProgram α) (f : α → FileProgram β) (w : World) :
    (p >>= f).succeeds w = (p.succeeds w && (f (p.run w).1).succeeds (p.run w).2) := by
  induction p generalizing w with
  | done a => rfl
  | ask r next ih =>
    change (w.carriesOut r && (next _ >>= f).succeeds _) = _
    rw [ih, ← Bool.and_assoc]
    rfl

theorem succeeds_perform (r : FileRequest) (w : World) :
    (perform r).succeeds w = w.carriesOut r := Bool.and_true _

theorem failures_of_succeeds (h : p.succeeds w = true) : p.failures w = 0 := by
  induction p generalizing w with
  | done => rfl
  | ask r next ih =>
    obtain ⟨first, rest⟩ := Bool.and_eq_true_iff.1 h
    exact Nat.add_eq_zero_iff.2 ⟨World.failures_of_carriesOut first, ih _ rest⟩

end FileProgram

namespace FileAction

variable {α β : Type} {w w₁ w₂ : World} {a : FileAction α}

/-- Whether every operation of a run is carried out. -/
def succeeds (a : FileAction α) (w : World) : Bool := (ExceptT.run a).succeeds w

theorem Yields.fault_eq_none {x : Except Fault α} (h : Yields a w x w₁)
    (noFault : w.fault = none) : w₁.fault = none :=
  Suffers.fault_eq_none ⟨h, rfl⟩ noFault

theorem Yields.succeeds_bind {x : α} {f : α → FileAction β} (h : Yields a w (.ok x) w₁) :
    (a >>= f).succeeds w = (a.succeeds w && (f x).succeeds w₁) := by
  have both := FileProgram.succeeds_bind (ExceptT.run a) (ExceptT.bindCont f) w
  rw [h] at both
  exact both

theorem Yields.succeeds_bind_error {e : Fault} {f : α → FileAction β}
    (h : Yields a w (.error e) w₁) : (a >>= f).succeeds w = a.succeeds w := by
  have both := FileProgram.succeeds_bind (ExceptT.run a) (ExceptT.bindCont f) w
  rw [h] at both
  exact both.trans (Bool.and_true _)

theorem Yields.succeeds_finallyDo {x : Except Fault α} {last : FileAction Unit}
    (h : Yields a w x w₁) :
    (a.finallyDo last).succeeds w = (a.succeeds w && last.succeeds w₁) := by
  change (ExceptT.run a >>= fun result => ExceptT.run last >>= fun _ => pure result).succeeds w = _
  rw [FileProgram.succeeds_bind, h, FileProgram.succeeds_bind]
  exact congrArg (a.succeeds w && ·) (Bool.and_true _)

/-- Where there is no fault an action fails with a file error only, and with none if every
operation is carried out. -/
structure Reliable (a : FileAction α) : Prop where
  error : ∀ {w e w'}, w.fault = none → Yields a w (.error e) w' → ∃ reason, e = .file reason
  ok : ∀ {w x w'}, w.fault = none → a.succeeds w = true → Yields a w x w' → ∃ y, x = .ok y

theorem reliable_pure (x : α) : Reliable (pure x : FileAction α) where
  error _ h := by cases (h.unique (yields_pure x _)).1
  ok _ _ h := ⟨x, (h.unique (yields_pure x _)).1⟩

theorem reliable_ofProgram (p : FileProgram α) : Reliable (ofProgram p) where
  error _ h := by
    obtain ⟨_, -, made⟩ := h.ofProgram_cases
    cases made
  ok _ _ h := by
    obtain ⟨reply, -, made⟩ := h.ofProgram_cases
    exact ⟨reply, made⟩

theorem reliable_ofFile {p : FileProgram (Except FileError α)}
    (h : ∀ {w e}, w.fault = none → (p.run w).1 = .error e → p.succeeds w = false) :
    Reliable (ofFile p) where
  error _ failed := by
    obtain ⟨reply, -, made⟩ := failed.ofFile_cases
    cases reply with
    | ok => cases made
    | error reason => exact ⟨reason, Except.error.inj made⟩
  ok {w x w'} noFault succeeds yields := by
    obtain ⟨reply, ran, rfl⟩ := yields.ofFile_cases
    cases reply with
    | ok y => exact ⟨y, rfl⟩
    | error e =>
      have failed := h noFault (congrArg Prod.fst ran)
      have all : p.succeeds w && true = true :=
        (FileProgram.succeeds_bind p (fun x => pure (x.mapError Fault.file)) w).symm.trans succeeds
      rw [failed] at all
      cases all

theorem Reliable.bind {f : α → FileAction β} (h : Reliable a) (next : ∀ x, Reliable (f x)) :
    Reliable (a >>= f) where
  error noFault failed := by
    rcases failed.bind_cases with ⟨e, same, failed⟩ | ⟨x, w₁, first, rest⟩
    · cases same
      exact h.error noFault failed
    · exact (next x).error (first.fault_eq_none noFault) rest
  ok noFault succeeds yields := by
    rcases yields.bind_cases with ⟨e, -, failed⟩ | ⟨x, w₁, first, rest⟩
    · rw [failed.succeeds_bind_error] at succeeds
      obtain ⟨y, made⟩ := h.ok noFault succeeds failed
      cases made
    · rw [first.succeeds_bind] at succeeds
      exact (next x).ok (first.fault_eq_none noFault) (Bool.and_eq_true_iff.1 succeeds).2 rest

theorem Reliable.ite {c : Prop} [Decidable c] {b : FileAction α} (yes : Reliable a)
    (no : Reliable b) : Reliable (if c then a else b) := by
  split
  · exact yes
  · exact no

theorem Reliable.onFailure (h : Reliable a) (undo : FileAction Unit) :
    Reliable (a.onFailure undo) where
  error noFault failed := by
    rcases failed.onFailure_cases with ⟨_, made, -⟩ | ⟨e, w₁, z, same, failed, -⟩
    · cases made
    · cases same
      exact h.error noFault failed
  ok {w x w'} noFault succeeds yields := by
    rcases yields.onFailure_cases with ⟨value, made, -⟩ | ⟨e, w₁, z, -, failed, -⟩
    · exact ⟨value, made⟩
    · change (ExceptT.run a >>= _).succeeds w = true at succeeds
      rw [FileProgram.succeeds_bind] at succeeds
      obtain ⟨y, made⟩ := h.ok noFault (Bool.and_eq_true_iff.1 succeeds).1 failed
      cases made

theorem Reliable.finallyDo (h : Reliable a) (last : FileAction Unit) :
    Reliable (a.finallyDo last) where
  error noFault failed := by
    obtain ⟨w₁, z, failed, -⟩ := failed.finallyDo_cases
    exact h.error noFault failed
  ok noFault succeeds yields := by
    obtain ⟨w₁, z, first, -⟩ := yields.finallyDo_cases
    rw [first.succeeds_finallyDo] at succeeds
    exact h.ok noFault (Bool.and_eq_true_iff.1 succeeds).1 first

/-- An action that goes on with the reply to an operation, or fails with it where the operation is
not carried out. -/
theorem reliable_asked {r : FileRequest} {f : r.Reply → FileAction α}
    (each : ∀ reply, Reliable (f reply) ∨ ∃ reason, f reply = throw (.file reason) ∧
      ∀ w : World, (w.answer r).1 = reply → w.carriesOut r = false) :
    Reliable (ofProgram (.perform r) >>= f) := by
  have onward (w : World) : Yields (ofProgram (.perform r)) w (.ok (w.answer r).1) (w.answer r).2 :=
    yields_ofProgram rfl
  constructor
  · intro w e w' noFault failed
    rcases failed.bind_cases with ⟨_, -, asked⟩ | ⟨reply, w₁, asked, failed⟩
    · cases (asked.unique (onward w)).1
    · rcases each reply with reliable | ⟨reason, thrown, -⟩
      · exact reliable.error (asked.fault_eq_none noFault) failed
      · rw [thrown] at failed
        exact ⟨reason, Except.error.inj (failed.unique (yields_throw _ _)).1⟩
  · intro w x w' noFault succeeds yields
    rcases yields.bind_cases with ⟨_, -, asked⟩ | ⟨reply, w₁, asked, rest⟩
    · cases (asked.unique (onward w)).1
    · rw [asked.succeeds_bind] at succeeds
      obtain ⟨first, others⟩ := Bool.and_eq_true_iff.1 succeeds
      rcases each reply with reliable | ⟨reason, -, refused⟩
      · exact reliable.ok (asked.fault_eq_none noFault) others rest
      · have carriedOut : w.carriesOut r = true := (Bool.and_eq_true_iff.1 first).1
        have same := Except.ok.inj (asked.unique (onward w)).1
        rw [refused w same.symm] at carriedOut
        cases carriedOut

section Operations

variable {p p' : FilePath}

theorem reliable_exists? (p : FilePath) : Reliable (exists? p) := reliable_ofProgram _

theorem reliable_tolerate (a : FileAction Unit) : Reliable (tolerate a) := reliable_ofProgram _

/-- An operation that is refused is not carried out, unless it is to create something. -/
theorem reliable_request (r : FileRequest) {p : FileProgram (Except FileError α)}
    (reply : ∀ w : World, r.refusal? (w.answer r).1 = FileRequest.errorOf (p.run w).1)
    (alike : ∀ w : World, p.succeeds w = w.carriesOut r)
    (notStale : ∀ w : World, w.findsStale r = false)
    (notThere : ∀ w : World, w.findsDirectory r = false) : Reliable (ofFile p) := by
  refine reliable_ofFile fun {w e} _ failed => ?_
  rw [alike]
  exact World.carriesOut_of_refused ((reply w).trans (congrArg FileRequest.errorOf failed))
    (notStale w) (notThere w)

theorem reliable_list (p : FilePath) : Reliable (ofFile (.perform (.list p))) :=
  reliable_request (.list p) (fun _ => rfl) (FileProgram.succeeds_perform _) (fun _ => rfl)
    fun _ => rfl

theorem reliable_writeText (p : FilePath) (text : String) : Reliable (writeText p text) :=
  reliable_request (.write p text.toUTF8) (fun _ => rfl) (FileProgram.succeeds_perform _)
    (fun _ => rfl) fun _ => rfl

theorem reliable_append (p : FilePath) (content : ByteArray) :
    Reliable (ofFile (.perform (.append p content))) :=
  reliable_request (.append p content) (fun _ => rfl) (FileProgram.succeeds_perform _)
    (fun _ => rfl) fun _ => rfl

theorem reliable_copy (p p' : FilePath) : Reliable (ofFile (.perform (.copy p p'))) :=
  reliable_request (.copy p p') (fun _ => rfl) (FileProgram.succeeds_perform _) (fun _ => rfl)
    fun _ => rfl

theorem reliable_rename (p p' : FilePath) : Reliable (rename p p') :=
  reliable_request (.rename p p') (fun _ => rfl) (FileProgram.succeeds_perform _) (fun _ => rfl)
    fun _ => rfl

theorem reliable_removeTree (p : FilePath) : Reliable (removeTree p) :=
  reliable_request (.removeTree p) (fun _ => rfl) (FileProgram.succeeds_perform _) (fun _ => rfl)
    fun _ => rfl

theorem reliable_removeIfExists (p : FilePath) : Reliable (removeIfExists p) :=
  (reliable_exists? p).bind fun _ => .ite (reliable_removeTree p) (reliable_pure ())

/-- The creation of a directory fails only if something else is in its place. -/
theorem reliable_createDirectories (filled : p.pieces ≠ []) : Reliable (createDirectories p) := by
  refine reliable_ofFile fun {w e} noFault failed => ?_
  obtain ⟨depth, form⟩ := Nat.exists_eq_succ_of_ne_zero (List.length_pos_iff.2 filled).ne'
  rw [FileProgram.createDirectories, form, FileProgram.createDirectoriesFrom] at failed ⊢
  by_cases empty : p.isEmpty = true
  · rw [if_pos empty] at failed
    cases failed
  rw [if_neg empty] at failed ⊢
  rw [FileProgram.run_bind, FileProgram.run_perform] at failed
  rw [FileProgram.succeeds_bind, FileProgram.succeeds_perform, Bool.and_eq_false_imp]
  intro carriedOut
  exfalso
  obtain ⟨reply, w₁, answer⟩ : ∃ reply w₁, w.answer (.createDirectory p) = (reply, w₁) :=
    ⟨_, _, rfl⟩
  rw [answer] at failed
  cases reply with
  | ok => cases failed
  | error reason =>
    obtain rfl := World.answer_createDirectory_error noFault answer
    rw [World.carriesOut, answer] at carriedOut
    obtain ⟨known, isThere⟩ := Bool.and_eq_true_iff.1 carriedOut
    cases of_decide_eq_true known
    have isDirectory : ((FileProgram.isDirectory p).run w₁).1 = true := isThere
    dsimp only at failed
    rw [FileProgram.run_bind, isDirectory] at failed
    cases failed

end Operations

end FileAction

end ProductSpec
